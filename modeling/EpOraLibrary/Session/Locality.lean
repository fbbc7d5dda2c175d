import EpOraLibrary.Session.Making

/-!
# EpOraLibrary — locality

What a call of a session changes belongs to the object the call is made on: the
records the object owns, the cursors and placeholders of its statement handles.
A `Next` also moves the cursor its result set was made on, and writes to the
columns defined on it. A result set of `Statement::Select` reads from a handle
that another object owns, so it is disturbed where that handle is.

* `World.Reaches`, `Sound.touches` — the places a call reaches.
* `Placed` — registered cursors belong to the parameters of the statement, and
  columns are defined on the handle of their result set; every call keeps it.
* `World.SharesHandle`, `World.UsesHandle` — the statement handles that concern
  an object, and those a call executes, reads from or gives back.
* `session_calls_local` — **calls on different objects do not interfere, unless
  they use the same statement handle.**
-/

namespace Epol

open Ledger Prog Runs

variable {w w' w₁ w₂ : World} {n s p r h : Nat} {T : Place → Prop} {held : List Res}

-- ---------------------------------------------------------------------------
-- What an object owns
-- ---------------------------------------------------------------------------

/-- A parameter of a statement, and the handle of its cursor, belong to the
owner of the statement. -/
theorem paramOwned_sub_stmt (hp : p ∈ (w.stmts s).m_parameters) :
    w.owned ⟨.parameter, p⟩ ⊆ w.owned ⟨.statement, s⟩ := fun _ hy =>
  List.mem_append_left _ (List.mem_append_right _ (List.mem_flatMap.mpr ⟨p, hp, hy⟩))

theorem mem_owned_stmtHandle (hh : (w.stmts s).m_stmtHandle = some h) :
    ⟨.stmt, h⟩ ∈ w.owned ⟨.statement, s⟩ := by
  simp [World.owned, World.stmtOwned, ptr, hh]

theorem mem_owned_rsHandle (hh : (w.params p).m_rsHandle = some h) :
    ⟨.stmt, h⟩ ∈ w.owned ⟨.parameter, p⟩ := by
  simp [World.owned, World.paramOwned, ptr, hh]

theorem mem_owned_cursor (hr : (w.params p).m_resultSet = some r) :
    ⟨.resultSet, r⟩ ∈ w.owned ⟨.parameter, p⟩ := by
  simp [World.owned, World.paramOwned, World.cursorOwned, hr]

-- ---------------------------------------------------------------------------
-- Every call
-- ---------------------------------------------------------------------------

/-- The places a `Next` on the result set `r` may change. -/
def World.NextReaches (w : World) (r : Nat) (place : Place) : Prop :=
  place = .object ⟨.resultSet, r⟩ ∨
    ∃ h, (w.rsets r).m_rsHandle = some h ∧
      (place = .cursor h ∨ ∃ c ∈ (w.oci.stmt h).targets, place = .object ⟨.column, c⟩)

/-- The places an execution of the statement `s` may change. -/
def World.ExecuteReaches (w : World) (s : Nat) (place : Place) : Prop :=
  place = .object ⟨.statement, s⟩ ∨
    ∃ h h', (w.stmts s).m_stmtHandle = some h ∧ w.OpensOn h h' ∧ place = .cursor h'

/-- The places a call may change. -/
def World.Reaches (w : World) : SessionCall → Place → Prop
  | .call (.bind s _ _), place => place = .object ⟨.statement, s⟩ ∨
      ∃ h, (w.stmts s).m_stmtHandle = some h ∧ place = .binds h
  | .call (.stmtExecute s), place => w.ExecuteReaches s place
  | .call (.stmtSelect s _), place => w.ExecuteReaches s place
  | .call (.next r), place => w.NextReaches r place
  | .call (.release x), place => ∃ y ∈ w.owned x, place = .object y
  | .call _, _ => False
  | .register _ p _, place => place = .object ⟨.parameter, p⟩
  | .toResultSet _ p, place => place = .object ⟨.parameter, p⟩ ∨
      ∃ h, (w.params p).m_rsHandle = some h ∧ place = .cursor h
  | .cursorNext _ p, place => ∃ r, (w.params p).m_resultSet = some r ∧ w.NextReaches r place

theorem fetchesInto_next (w : World) (n r : Nat) : FetchesInto n (w.NextReaches r) w r :=
  ⟨fun _ => .inl rfl, fun h hh _ => .inr ⟨h, hh, .inl rfl⟩,
    fun h hh c hc _ => .inr ⟨h, hh, .inr ⟨c, hc, rfl⟩⟩⟩

/-- The release of a held object does not throw. -/
theorem Sound.touches_release (h : Sound w held) {x : Res} (hx : x ∈ held) :
    wp (ReleaseObj x)
      (fun _ w' => Touches w.fresh (fun place => ∃ y ∈ w.owned x, place = .object y) w w')
      (fun _ _ => False) w := by
  have hKind : x.kind = .statement ∨ x.kind = .resultSet ∨ x.kind = .parameter := by
    have hObject := h.kinds x hx
    obtain ⟨kind, id⟩ := x
    cases kind <;> simp [Kind.isObject] at hObject ⊢
  exact wp_mono (wp_and (wp_releaseObj (E := fun _ _ => False) 0 hKind h.cursors
    ((List.nodup_flatMap.mp h.nodup).1 x hx)) (sheds_releaseObj _ x w))
    (fun _ _ hF => hF.1.touches hF.2 _) (fun _ _ hFalse => hFalse.1.elim)

/-- **Every call** of a session changes the places it reaches only, whether it
returns or throws. -/
theorem Sound.touches {held : List Res} (h : Sound w held) (l : SessionCall)
    (hPermits : App.Permits ⟨w, held⟩ l) :
    wp l.run (fun _ w' => Touches w.fresh (w.Reaches l) w w')
      (fun _ w' => Touches w.fresh (w.Reaches l) w w') w := by
  have hFresh : w.fresh ≤ w.fresh := Nat.le_refl _
  have hBelow : ∀ {x y}, x ∈ held → y ∈ w.owned x → y.id < w.fresh := fun hx hy =>
    h.id_lt (List.mem_flatMap.mpr ⟨_, hx, hy⟩)
  cases l with
  | call l =>
    cases l with
    | execute sql =>
      rw [SessionCall.run, Call.run, wp_bind]
      exact touches_execute sql hFresh h.cursors
    | prepare sql =>
      rw [SessionCall.run, Call.run, wp_bind]
      exact wp_mono (touches_newStatement sql hFresh h.cursors) (fun _ _ h => h.1) (fun _ _ h => h)
    | select sql F =>
      rw [SessionCall.run, Call.run, wp_bind]
      exact touches_connectionSelect sql F hFresh h.cursors
    | bind s name type =>
      rw [SessionCall.run, Call.run, wp_bind]
      exact wp_mono (touches_statementBind hFresh h.cursors (fun _ => .inl rfl)
        (fun h hh _ => .inr ⟨h, hh, rfl⟩) name type) (fun _ _ hT => hT.1) (fun _ _ hT => hT)
    | stmtExecute s =>
      rw [SessionCall.run, Call.run, wp_bind]
      exact touches_executePrepared (fun _ => .inl rfl)
        fun h hh h' hOpens _ => .inr ⟨h, h', hh, hOpens, rfl⟩
    | stmtSelect s F =>
      rw [SessionCall.run, Call.run, wp_bind]
      exact touches_selectWith (fun _ => .inl rfl) hFresh h.cursors
        (fun _ hh => hBelow (hPermits _ rfl) (mem_owned_stmtHandle hh)) F
        fun h hh h' hOpens _ => .inr ⟨h, h', hh, hOpens, rfl⟩
    | next r =>
      rw [SessionCall.run, Call.run, wp_bind]
      exact touches_next (fetchesInto_next w _ r)
    | release x =>
      rw [SessionCall.run, Call.run, wp_bind]
      exact wp_mono (h.touches_release (hPermits x rfl)) (fun _ _ h => h)
        (fun _ _ hFalse => hFalse.elim)
  | register s p l =>
    rw [SessionCall.run, wp_bind]
    have hRegister := respects_registerCall (frame_touches w.fresh (w.Reaches (.register s p l)))
      (fun w rs _ => touches_uses w rs) l (fun f hf _ => respects_modify fun w =>
        touches_modifyParam w _ (fun _ => rfl) fun _ => (hf (w.params p)).owns.2) w
    exact wp_mono hRegister (fun _ _ h => h) (fun _ _ h => h)
  | toResultSet s p =>
    rw [SessionCall.run, wp_bind]
    exact wp_mono (touches_toResultSet hFresh (fun _ => .inl rfl)
      (fun _ hh => hBelow hPermits.1 (paramOwned_sub_stmt hPermits.2 (mem_owned_rsHandle hh)))
      fun h hh _ => .inr ⟨h, hh, rfl⟩) (fun _ _ h => h) (fun _ _ h => h)
  | cursorNext s p =>
    rw [SessionCall.run, Parameter.cursorNext, wp_bind, wp_bind, wp_get]
    cases hCursor : (w.params p).m_resultSet with
    | none => exact .refl _ _ w
    | some r =>
      dsimp only
      rw [wp_bind]
      refine touches_next ?_
      obtain ⟨hObject, hCur, hCols⟩ := fetchesInto_next w w.fresh r
      exact ⟨fun hlt => ⟨r, hCursor, hObject hlt⟩, fun h hh hlt => ⟨r, hCursor, hCur h hh hlt⟩,
        fun h hh c hc hlt => ⟨r, hCursor, hCols h hh c hc hlt⟩⟩

-- ---------------------------------------------------------------------------
-- Whose places a call reaches
-- ---------------------------------------------------------------------------

/-- The handle or object a place is part of. -/
def Place.part : Place → Res
  | .object x => x
  | .cursor h => ⟨.stmt, h⟩
  | .binds h => ⟨.stmt, h⟩

/-- The object of the application the call is made on. -/
def SessionCall.object : SessionCall → Option Res
  | .call l => l.object
  | .register s _ _ => some ⟨.statement, s⟩
  | .toResultSet s _ => some ⟨.statement, s⟩
  | .cursorNext s _ => some ⟨.statement, s⟩

/-- The result set the call is a `Next` on. -/
def World.reads (w : World) : SessionCall → Option Nat
  | .call (.next r) => some r
  | .cursorNext _ p => (w.params p).m_resultSet
  | _ => none

/-- Positions are defined on columns that are there, the columns of a result set
on its handle. -/
structure World.ColumnsPlaced (w : World) : Prop where
  defines : ∀ h pos c, (w.oci.stmt h).defines pos = some c → c < w.fresh
  columns : ∀ r, ∀ c ∈ (w.rsets r).m_columns, c < w.fresh ∧
    ∀ h pos, (w.oci.stmt h).defines pos = some c → (w.rsets r).m_rsHandle = some h

/-- A cursor registered for the statement `s` is the handle of one of its
parameters, or of none. -/
def World.OwnCursors (w : World) (s : Nat) : Prop :=
  ∀ h, (w.stmts s).m_stmtHandle = some h → ∀ e ∈ (w.oci.stmt h).binds, ∀ p,
    e.2.valuep = .rsHandle p → p < w.fresh ∧
      (p ∈ (w.stmts s).m_parameters ∨ (w.params p).m_rsHandle = none)

/-- Where the parts of the objects held are, and that the handles result sets are
made on were handed out. -/
structure Placed (w : World) (held : List Res) : Prop where
  sound   : Sound w held
  columns : w.ColumnsPlaced
  madeOn  : ∀ r h, (w.rsets r).m_rsHandle = some h → h < w.fresh
  cursors : ∀ s, ⟨.statement, s⟩ ∈ held → w.OwnCursors s

theorem Hosts.columnsPlaced (hH : Hosts w w') (h : w.ColumnsPlaced) : w'.ColumnsPlaced where
  defines hd pos c hDefined := by
    rcases hH.defines hd pos c hDefined with hOld | hNew
    · exact Nat.lt_of_lt_of_le (h.defines hd pos c hOld) hH.fresh
    · exact hNew.2
  columns r c hc := by
    rcases hH.columns r c hc with ⟨hOld, hHandle⟩ | ⟨hNew, hLt, hDefined⟩
    · obtain ⟨hLt, hDefined⟩ := h.columns r c hOld
      refine ⟨Nat.lt_of_lt_of_le hLt hH.fresh, fun hd pos hNow => ?_⟩
      rw [hHandle]
      rcases hH.defines hd pos c hNow with hBefore | hLater
      · exact hDefined hd pos hBefore
      · exact absurd hLt (Nat.not_lt_of_le hLater.1)
    · refine ⟨hLt, fun hd pos hNow => ?_⟩
      rcases hDefined hd pos hNow with hHandle | hBefore
      · exact hHandle
      · exact absurd (h.defines hd pos c hBefore) (Nat.not_lt_of_le hNew)

/-- A held statement owns its handle and those of its cursors apart. -/
theorem Sound.rsHandle_ne (hSound : Sound w held) (hs : ⟨.statement, s⟩ ∈ held)
    (hp : p ∈ (w.stmts s).m_parameters) (hh : (w.stmts s).m_stmtHandle = some h) :
    (w.params p).m_rsHandle ≠ some h := by
  intro hCursor
  have hNodup := (List.nodup_flatMap.mp hSound.nodup).1 _ hs
  rw [World.owned, World.stmtOwned, List.append_assoc] at hNodup
  refine (List.nodup_append.mp hNodup).2.2 ⟨.stmt, h⟩ (by simp [ptr, hh]) ⟨.stmt, h⟩ ?_ rfl
  exact List.mem_append_left _ (List.mem_flatMap.mpr ⟨p, hp, mem_owned_rsHandle hCursor⟩)

/-- A column belongs to a result set of the same owner. -/
theorem mem_owned_column {o : Res} {c : Nat} (hKind : o.kind.isObject = true)
    (hm : (⟨.column, c⟩ : Res) ∈ w.owned o) :
    ∃ r, ⟨.resultSet, r⟩ ∈ w.owned o ∧ c ∈ (w.rsets r).m_columns := by
  have hColumns : ∀ r, ⟨.column, c⟩ ∈ w.columnsOwned r → c ∈ (w.rsets r).m_columns :=
    fun r hc => by simpa [World.columnsOwned] using hc
  have hParam : ∀ p, ⟨.column, c⟩ ∈ w.paramOwned p →
      ∃ r, (w.params p).m_resultSet = some r ∧ c ∈ (w.rsets r).m_columns := fun p hc => by
    simp only [World.paramOwned, World.cursorOwned, List.mem_append, List.mem_flatMap,
      List.mem_singleton, Option.mem_toList] at hc
    rcases hc with (⟨r, hr, hc | hc⟩ | hc) | hc
    · exact ⟨r, hr, hColumns r hc⟩
    · cases hc
    · simp [ptr] at hc
    · cases hc
  have hStmt : ∀ s, ⟨.column, c⟩ ∈ w.stmtOwned s →
      ∃ r, ⟨.resultSet, r⟩ ∈ w.stmtOwned s ∧ c ∈ (w.rsets r).m_columns := fun s hc => by
    simp only [World.stmtOwned, List.mem_append, List.mem_flatMap, List.mem_singleton] at hc
    rcases hc with (hc | ⟨p, hp, hc⟩) | hc
    · simp [ptr] at hc
    · obtain ⟨r, hr, hc⟩ := hParam p hc
      exact ⟨r, paramOwned_sub_stmt hp (mem_owned_cursor hr), hc⟩
    · cases hc
  obtain ⟨kind, id⟩ := o
  cases kind with
  | statement => exact hStmt id hm
  | parameter =>
    obtain ⟨r, hr, hc⟩ := hParam id hm
    exact ⟨r, mem_owned_cursor hr, hc⟩
  | resultSet =>
    simp only [World.owned, World.rsOwned, List.mem_append, List.mem_flatMap,
      List.mem_singleton, Option.mem_toList] at hm
    rcases hm with (hm | ⟨s, hs, hm⟩) | hm
    · exact ⟨id, mem_owned_self w _, hColumns id hm⟩
    · obtain ⟨r, hr, hc⟩ := hStmt s hm
      exact ⟨r, by simp [World.owned, World.rsOwned, hs, hr], hc⟩
    · cases hm
  | _ => cases hKind

/-- A place that is reached belongs to the object the call is made on, or is the
cursor the call reads from, or a column that is defined on it. -/
theorem Placed.reaches (hP : Placed w held) {l : SessionCall}
    (hPermits : App.Permits ⟨w, held⟩ l) {place : Place} (hReach : w.Reaches l place) :
    (∃ x ∈ held, l.object = some x ∧ place.part ∈ w.owned x) ∨
      ∃ r h, w.reads l = some r ∧ (w.rsets r).m_rsHandle = some h ∧
        (place = .cursor h ∨ ∃ c ∈ (w.oci.stmt h).targets, place = .object ⟨.column, c⟩) := by
  have hParam : ∀ {s p y}, App.HasParam ⟨w, held⟩ s p → y ∈ w.owned ⟨.parameter, p⟩ →
      ∃ x ∈ held, some (⟨.statement, s⟩ : Res) = some x ∧ y ∈ w.owned x := fun hHas hy =>
    ⟨_, hHas.1, rfl, paramOwned_sub_stmt hHas.2 hy⟩
  have hExecute : ∀ {s}, (⟨.statement, s⟩ : Res) ∈ held → w.ExecuteReaches s place →
      ∃ x ∈ held, some (⟨.statement, s⟩ : Res) = some x ∧ place.part ∈ w.owned x := by
    rintro s hs (rfl | ⟨h, h', hh, hOpens, rfl⟩)
    · exact ⟨_, hs, rfl, mem_owned_self w _⟩
    · rcases hOpens with rfl | ⟨e, he, p, hAddr, hh'⟩
      · exact ⟨_, hs, rfl, mem_owned_stmtHandle hh⟩
      · -- the cursor is that of a parameter of the statement
        rcases (hP.cursors s hs h hh e he p hAddr).2 with hp | hNone
        · exact ⟨_, hs, rfl, paramOwned_sub_stmt hp (mem_owned_rsHandle hh')⟩
        · rw [hNone] at hh'
          cases hh'
  cases l with
  | call l =>
    cases l with
    | execute sql => exact hReach.elim
    | prepare sql => exact hReach.elim
    | select sql F => exact hReach.elim
    | bind s name type =>
      have hs : (⟨.statement, s⟩ : Res) ∈ held := hPermits _ rfl
      rcases hReach with rfl | ⟨h, hh, rfl⟩
      · exact .inl ⟨_, hs, rfl, mem_owned_self w _⟩
      · exact .inl ⟨_, hs, rfl, mem_owned_stmtHandle hh⟩
    | stmtExecute s => exact .inl (hExecute (hPermits _ rfl) hReach)
    | stmtSelect s F => exact .inl (hExecute (hPermits _ rfl) hReach)
    | next r =>
      rcases hReach with rfl | ⟨h, hh, hPlace⟩
      · exact .inl ⟨_, hPermits _ rfl, rfl, mem_owned_self w _⟩
      · exact .inr ⟨r, h, rfl, hh, hPlace⟩
    | release x =>
      obtain ⟨y, hy, rfl⟩ := hReach
      exact .inl ⟨x, hPermits _ rfl, rfl, hy⟩
  | register s p l =>
    obtain rfl := hReach
    exact .inl (hParam hPermits (mem_owned_self w _))
  | toResultSet s p =>
    rcases hReach with rfl | ⟨h, hh, rfl⟩
    · exact .inl (hParam hPermits (mem_owned_self w _))
    · exact .inl (hParam hPermits (mem_owned_rsHandle hh))
  | cursorNext s p =>
    obtain ⟨r, hr, rfl | ⟨h, hh, hPlace⟩⟩ := hReach
    · exact .inl (hParam hPermits (mem_owned_cursor hr))
    · exact .inr ⟨r, h, hr, hh, hPlace⟩

/-- What an object owns has numbers that were handed out. -/
theorem Placed.below (hP : Placed w held) {o : Res} (ho : o ∈ held) {P : Place}
    (hPart : P.part ∈ w.owned o) : P.Below w.fresh := by
  have hLt := hP.sound.id_lt (List.mem_flatMap.mpr ⟨o, ho, hPart⟩)
  cases P <;> exact hLt

-- ---------------------------------------------------------------------------
-- Which statement handles concern an object
-- ---------------------------------------------------------------------------

/-- The statement handle `h` concerns the object `o`: it owns the handle, or a
result set that was made on it and reads from it. -/
def World.SharesHandle (w : World) (o : Res) (h : Nat) : Prop :=
  ⟨.stmt, h⟩ ∈ w.owned o ∨ ∃ r, ⟨.resultSet, r⟩ ∈ w.owned o ∧ (w.rsets r).m_rsHandle = some h

/-- An execution of the statement `s` opens a cursor on the handle `h`. -/
def World.ExecutesOn (w : World) (s h : Nat) : Prop :=
  ∃ hd, (w.stmts s).m_stmtHandle = some hd ∧ w.OpensOn hd h

/-- The call executes the statement handle `h`, makes a result set on it, reads
from it, or releases what owns it. -/
def World.UsesHandle (w : World) (h : Nat) : SessionCall → Prop
  | .call (.stmtExecute s) => w.ExecutesOn s h
  | .call (.stmtSelect s _) => w.ExecutesOn s h
  | .call (.next r) => (w.rsets r).m_rsHandle = some h
  | .call (.release x) => ⟨.stmt, h⟩ ∈ w.owned x
  | .call _ => False
  | .register _ _ _ => False
  | .toResultSet _ p => (w.params p).m_rsHandle = some h
  | .cursorNext _ p => ∃ r, (w.params p).m_resultSet = some r ∧ (w.rsets r).m_rsHandle = some h

/-- The call uses no statement handle that concerns `o`. -/
def World.HandlesApart (w : World) (o : Res) (l : SessionCall) : Prop :=
  ∀ h, w.SharesHandle o h → ¬ w.UsesHandle h l

theorem usesHandle_of_reads {l : SessionCall} (hReads : w.reads l = some r)
    (hh : (w.rsets r).m_rsHandle = some h) : w.UsesHandle h l := by
  cases l with
  | call l =>
    cases l with
    | next r' =>
      obtain rfl : r' = r := Option.some.inj hReads
      exact hh
    | _ => cases hReads
  | cursorNext s p => exact ⟨r, hReads, hh⟩
  | _ => cases hReads

/-- A call that moves a cursor or gives a handle back uses it. -/
theorem usesHandle_of_reaches {l : SessionCall}
    (hReach : w.Reaches l (.cursor h) ∨ w.Reaches l (.object ⟨.stmt, h⟩)) : w.UsesHandle h l := by
  have hExecute : ∀ {s}, w.ExecuteReaches s (.cursor h) ∨ w.ExecuteReaches s (.object ⟨.stmt, h⟩) →
      w.ExecutesOn s h := by
    rintro s ((hEq | ⟨hd, h', hh, hOpens, hEq⟩) | (hEq | ⟨hd, h', -, -, hEq⟩)) <;> cases hEq
    exact ⟨hd, hh, hOpens⟩
  have hNext : ∀ {r'}, w.NextReaches r' (.cursor h) ∨ w.NextReaches r' (.object ⟨.stmt, h⟩) →
      (w.rsets r').m_rsHandle = some h := by
    rintro r' ((hEq | ⟨hd, hh, hEq | ⟨c, -, hEq⟩⟩) | (hEq | ⟨hd, -, hEq | ⟨c, -, hEq⟩⟩)) <;>
      cases hEq
    exact hh
  cases l with
  | call l =>
    cases l with
    | bind s name type =>
      rcases hReach with (hEq | ⟨hd, -, hEq⟩) | (hEq | ⟨hd, -, hEq⟩) <;> cases hEq
    | stmtExecute s => exact hExecute hReach
    | stmtSelect s F => exact hExecute hReach
    | next r' => exact hNext hReach
    | release x =>
      rcases hReach with ⟨y, -, hEq⟩ | ⟨y, hy, hEq⟩
      · cases hEq
      · cases hEq
        exact hy
    | _ => exact hReach.elim id id
  | register s p l => rcases hReach with hEq | hEq <;> cases hEq
  | toResultSet s p =>
    rcases hReach with (hEq | ⟨hd, hh, hEq⟩) | (hEq | ⟨hd, -, hEq⟩) <;> cases hEq
    exact hh
  | cursorNext s p =>
    rcases hReach with ⟨r', hr', hReach⟩ | ⟨r', hr', hReach⟩
    · exact ⟨r', hr', hNext (.inl hReach)⟩
    · exact ⟨r', hr', hNext (.inr hReach)⟩

/-- The places an object is made of, and the handles its result sets read from. -/
def World.Concerns (w : World) (o : Res) (place : Place) : Prop :=
  place.part ∈ w.owned o ∨
    ∃ h, w.SharesHandle o h ∧ (place = .cursor h ∨ place = .object ⟨.stmt, h⟩)

/-- What concerns an object is not reached by a call on another one that uses
none of its handles. -/
theorem Placed.not_reaches (hP : Placed w held) {l : SessionCall}
    (hPermits : App.Permits ⟨w, held⟩ l) {o : Res} (ho : o ∈ held) (hOther : l.object ≠ some o)
    (hApart : w.HandlesApart o l) {place : Place} (hPlace : w.Concerns o place) :
    ¬ w.Reaches l place := by
  intro hReach
  rcases hPlace with hPart | ⟨h, hShares, hEq⟩
  · rcases hP.reaches hPermits hReach with ⟨x, hx, hObject, hOwned⟩ | ⟨r, h, hr, hh, hPlace⟩
    · have heq := hP.sound.owner_unique hx ho hOwned hPart
      exact hOther (heq ▸ hObject)
    · refine hApart h ?_ (usesHandle_of_reads hr hh)
      rcases hPlace with rfl | ⟨c, hc, rfl⟩
      · exact .inl hPart
      · obtain ⟨r', hr', hc'⟩ := mem_owned_column (hP.sound.kinds o ho) hPart
        obtain ⟨pos, -, hDefined⟩ := List.mem_filterMap.mp hc
        exact .inr ⟨r', hr', (hP.columns.columns r' c hc').2 h (pos + 1) hDefined⟩
  · refine hApart h hShares (usesHandle_of_reaches ?_)
    rcases hEq with rfl | rfl
    · exact .inl hReach
    · exact .inr hReach

/-- What concerns an object has numbers that were handed out. -/
theorem Placed.concerns_below (hP : Placed w held) {o : Res} (ho : o ∈ held) {place : Place}
    (hPlace : w.Concerns o place) : place.Below w.fresh := by
  rcases hPlace with hPart | ⟨h, hShares, hEq⟩
  · exact hP.below ho hPart
  · have hLt : h < w.fresh := by
      rcases hShares with hOwned | ⟨r, -, hh⟩
      · exact hP.below (P := .cursor h) ho hOwned
      · exact hP.madeOn r h hh
    rcases hEq with rfl | rfl
    · exact hLt
    · exact hLt

-- ---------------------------------------------------------------------------
-- Every call keeps the parts in place
-- ---------------------------------------------------------------------------

/-- Registered cursors stay with the parameters of a statement that keeps its
handle, its parameters and its placeholders. -/
theorem World.OwnCursors.step (h : w.OwnCursors s) (hT : Touches w.fresh T w w')
    (hHandle : (w'.stmts s).m_stmtHandle = (w.stmts s).m_stmtHandle)
    (hParams : (w'.stmts s).m_parameters = (w.stmts s).m_parameters)
    (hBinds : ∀ hd, (w.stmts s).m_stmtHandle = some hd →
      (w'.oci.stmt hd).binds = (w.oci.stmt hd).binds) : w'.OwnCursors s := by
  intro hd hh e he p hAddr
  rw [hHandle] at hh
  rw [hBinds hd hh] at he
  obtain ⟨hLt, hOwn⟩ := h hd hh e he p hAddr
  refine ⟨Nat.lt_of_lt_of_le hLt hT.fresh, ?_⟩
  rw [hParams]
  exact hOwn.imp_right (hT.handles p hLt)

/-- A statement whose record the call does not reach. -/
theorem Placed.ownCursors (hP : Placed w held) {l : SessionCall}
    (hT : Touches w.fresh (w.Reaches l) w w') (hs : ⟨.statement, s⟩ ∈ held)
    (hObject : ¬ w.Reaches l (.object ⟨.statement, s⟩))
    (hBinds : ∀ h, (w.stmts s).m_stmtHandle = some h → ¬ w.Reaches l (.binds h)) :
    w'.OwnCursors s := by
  have hSame : w'.stmts s = w.stmts s :=
    (hT.same (.object ⟨.statement, s⟩) (hP.below hs (mem_owned_self w _)) hObject).1
  refine (hP.cursors s hs).step hT (by rw [hSame]) (by rw [hSame]) fun h hh => ?_
  exact hT.same (.binds h) (hP.below hs (mem_owned_stmtHandle hh)) (hBinds h hh)

/-- A parameter that was released has no statement handle. -/
theorem rsHandle_releaseObj (depth p : Nat) (w : World) :
    wp (releaseObj (depth + 1) ⟨.parameter, p⟩) (fun _ w' => (w'.params p).m_rsHandle = none)
      (fun _ _ => True) w := by
  rw [releaseObj, wp_bind, Parameter.cleanUpWith, wp_bind, wp_get, wp_bind]
  refine wp_mono (wp_trivial _ _) (fun _ w₁ _ => ?_) (fun _ _ _ => trivial)
  rw [wp_bind, wp_modifyParam, wp_bind]
  refine wp_mono (wp_trivial _ _) (fun _ w₂ _ => ?_) (fun _ _ _ => trivial)
  rw [wp_modifyParam, wp_release]
  simp only [Function.update_self]

/-- The memory of a registration that is a handle is that of its parameter. -/
theorem Registration.of_rsHandle {t : DataType} {p' : Nat}
    (h : (Registration.of p t).valuep = .rsHandle p') : p' = p := by
  unfold Registration.of at h
  split at h <;> simp at h
  exact h.symm

/-- A placeholder that was registered before, or by a call that registers the
parameter `p`. -/
theorem mem_registered {cfg : Setting} {done : Bool} {name : TString} {reg : Registration}
    {binds : List (TString × Registration)} {e : TString × Registration}
    (he : e ∈ registered cfg done name reg binds) : e.2 = reg ∨ e ∈ binds := by
  unfold registered at he
  split at he
  · rcases List.mem_cons.mp he with rfl | he
    · exact .inl rfl
    · exact .inr (List.mem_filter.mp he).1
  · exact .inr he

/-- The cursors registered after a `Bind` are those of before and that of the new
parameter. -/
theorem ownCursors_attached (h : w.OwnCursors s)
    (hLt : ∀ hd, (w.stmts s).m_stmtHandle = some hd → hd < w.fresh) {param : Parameter}
    {done : Bool} {name : TString} {t : DataType}
    (hA : Attaching w w₁ s w.fresh param (registered w.cfg done name (.of w.fresh t)))
    (hOci : w'.oci = w₁.oci) (hFresh : w.fresh < w'.fresh)
    (hHandle : (w'.stmts s).m_stmtHandle = (w.stmts s).m_stmtHandle)
    (hParams : (w.stmts s).m_parameters ⊆ (w'.stmts s).m_parameters)
    (hOld : ∀ p < w.fresh, (w.params p).m_rsHandle = none → (w'.params p).m_rsHandle = none)
    (hNew : w.fresh ∈ (w'.stmts s).m_parameters ∨ (w'.params w.fresh).m_rsHandle = none) :
    w'.OwnCursors s := by
  intro hd hh e he p hAddr
  rw [hHandle] at hh
  rw [hOci, hA.binds hd hh (hLt hd hh)] at he
  rcases mem_registered he with hReg | he
  · rw [hReg] at hAddr
    obtain rfl := Registration.of_rsHandle hAddr
    exact ⟨hFresh, hNew⟩
  · obtain ⟨hp, hOwn⟩ := h hd hh e he p hAddr
    exact ⟨Nat.lt_trans hp hFresh, hOwn.imp (fun hm => hParams hm) (hOld p hp)⟩

/-- `Bind` registers a cursor of the new parameter, which becomes one of the
statement or has no handle left. -/
theorem ownCursors_bind (h : w.OwnCursors s) (hs : s < w.fresh)
    (hLt : ∀ hd, (w.stmts s).m_stmtHandle = some hd → hd < w.fresh)
    (hCursors : w.CursorsBelow w.fresh) (name : TString) (type : DataType) :
    wp (Statement.bind s name type) (fun _ w' => w'.OwnCursors s) (fun _ w' => w'.OwnCursors s)
      w := by
  rw [Statement.bind, wp_bind, Parameter.new, wp_bind, wp_acquire, wp_bind, wp_modifyParam, wp_bind]
  refine wp_constructing rfl (wp_mono (wp_attachParameter (attaching_start w s) name type) ?_ ?_)
  · rintro - w₁ ⟨-, param, t, hTyped, hA⟩
    have hFresh : w.fresh < w₁.fresh := (hA.gains.new _ (mem_owned_self w₁ _)).2
    have hOld : ∀ p < w.fresh, (w.params p).m_rsHandle = none → (w₁.params p).m_rsHandle = none :=
      fun p hp hNone => by rw [hA.params p (Nat.ne_of_lt hp), hNone]
    rw [wp_pure, wp_bind, wp_get, wp_bind, wp_modifyStmt, wp_pure]
    refine ownCursors_attached h hLt hA rfl hFresh ?_ ?_ hOld ?_
    · simp [hA.stmts]
    · simp [hA.stmts]
    · exact .inl (by simp)
  · rintro e w₁ ⟨-, param, t, done, -, hA⟩
    have hRelease := wp_releaseObj (E := fun _ _ => False) 1 (.inr (.inr rfl))
      (hA.gains.conserves.cursors _ (Nat.le_refl _) hCursors) hA.gains.nodup
    refine wp_mono (wp_and (wp_and hRelease (sheds_releaseObj _ _ w₁))
      (rsHandle_releaseObj 5 w.fresh w₁)) ?_ (fun _ _ hFalse => hFalse.1.1.elim)
    rintro - w' ⟨⟨hF, hS⟩, hNone⟩
    have hStmt : w'.stmts s = w.stmts s := by
      rw [← hA.stmts]
      exact hF.untouched ⟨.statement, s⟩ fun hm =>
        absurd hs (Nat.not_lt_of_le (hA.gains.new _ hm).1)
    have hFresh : w₁.fresh = w'.fresh := by rw [hF.same]
    refine ownCursors_attached h hLt hA (by rw [hF.same]) ?_ (by rw [hStmt]) (by rw [hStmt]; simp)
      (fun p hp hOld => hS.params p ?_) (.inr hNone)
    · rw [← hFresh]
      exact (hA.gains.new _ (mem_owned_self w₁ _)).2
    · rw [hA.params p (Nat.ne_of_lt hp), hOld]

/-- Only `Prepare` returns a statement. -/
theorem returns_statement (l : SessionCall) (w : World) :
    wp l.run (fun x _ => ∀ s, x = some ⟨.statement, s⟩ → ∃ sql, l = .call (.prepare sql))
      (fun _ _ => True) w := by
  have hReturned := wp_returned (w := w) (P := fun o _ => o.kind = .statement →
    ∃ sql, l = .call (.prepare sql)) l ?_ ?_ ?_
  · refine wp_mono hReturned (fun x w' h s hs => h _ hs rfl) (fun _ _ _ => trivial)
  · rintro sql rfl
    exact wp_mono (wp_trivial _ w) (fun _ _ _ _ => ⟨sql, rfl⟩) (fun _ _ _ => trivial)
  · intro sql F _
    exact wp_mono (wp_trivial _ w) (fun _ _ _ hKind => by cases hKind) (fun _ _ _ => trivial)
  · intro s F _
    exact wp_mono (wp_trivial _ w) (fun _ _ _ hKind => by cases hKind) (fun _ _ _ => trivial)

/-- No statement and no placeholder is reached by a `Next`. -/
theorem not_nextReaches (r s h : Nat) (w : World) :
    ¬ w.NextReaches r (.object ⟨.statement, s⟩) ∧ ¬ w.NextReaches r (.binds h) := by
  constructor
  · rintro (hEq | ⟨hd, -, hEq | ⟨c, -, hEq⟩⟩) <;> cases hEq
  · rintro (hEq | ⟨hd, -, hEq | ⟨c, -, hEq⟩⟩) <;> cases hEq

section Kept

variable {l : SessionCall} (hP : Placed w held)
include hP

theorem Placed.statement_below (hs : ⟨.statement, s⟩ ∈ held) :
    s < w.fresh ∧ ∀ h, (w.stmts s).m_stmtHandle = some h → h < w.fresh :=
  ⟨hP.below (P := .object ⟨.statement, _⟩) hs (mem_owned_self w _),
    fun _ hh => hP.below (P := .cursor _) hs (mem_owned_stmtHandle hh)⟩

/-- A statement held after a call is one that was held before, unless the call is
`Prepare`. -/
theorem Placed.ownCursors_kept (hPermits : App.Permits ⟨w, held⟩ l)
    (hNot : ∀ sql, l ≠ .call (.prepare sql)) (hKeeps : l.keeps held = held) {P : World → Prop}
    (hRun : wp l.run (fun _ w' => P w') (fun _ w' => P w') w)
    (hCall : ∀ w', P w' → Touches w.fresh (w.Reaches l) w w' →
      ∀ s, ⟨.statement, s⟩ ∈ held → w'.OwnCursors s) :
    wp l.run (fun x w' => ∀ s, ⟨.statement, s⟩ ∈ x.toList ++ l.keeps held → w'.OwnCursors s)
      (fun _ w' => ∀ s, ⟨.statement, s⟩ ∈ held → w'.OwnCursors s) w := by
  refine wp_mono (wp_and (wp_and hRun (hP.sound.touches l hPermits)) (returns_statement l w))
    ?_ (fun _ w' h => hCall w' h.1.1 h.1.2)
  rintro x w' ⟨⟨hw', hT⟩, hx⟩ s hs
  rw [hKeeps] at hs
  rcases List.mem_append.mp hs with hs | hs
  · obtain ⟨sql, rfl⟩ := hx s (Option.mem_toList.mp hs)
    exact absurd rfl (hNot sql)
  · exact hCall w' hw' hT s hs

/-- A call that reaches no statement that is held and no placeholder of one. -/
theorem Placed.ownCursors_left (hPermits : App.Permits ⟨w, held⟩ l)
    (hNot : ∀ sql, l ≠ .call (.prepare sql)) (hKeeps : l.keeps held = held)
    (hLeaves : ∀ s, ¬ w.Reaches l (.object ⟨.statement, s⟩) ∧ ∀ h, ¬ w.Reaches l (.binds h)) :
    wp l.run (fun x w' => ∀ s, ⟨.statement, s⟩ ∈ x.toList ++ l.keeps held → w'.OwnCursors s)
      (fun _ w' => ∀ s, ⟨.statement, s⟩ ∈ held → w'.OwnCursors s) w :=
  hP.ownCursors_kept hPermits hNot hKeeps (wp_trivial _ w) fun _ _ hT s hs =>
    hP.ownCursors hT hs (hLeaves s).1 fun h _ => (hLeaves s).2 h

/-- A call that executes a statement registers nothing. -/
theorem Placed.ownCursors_executed {s₀ : Nat} (hPermits : App.Permits ⟨w, held⟩ l)
    (hNot : ∀ sql, l ≠ .call (.prepare sql)) (hKeeps : l.keeps held = held)
    (hReaches : ∀ place, w.Reaches l place ↔ w.ExecuteReaches s₀ place)
    (hRun : wp l.run (fun _ w' => Linked w w' ⟨.statement, s₀⟩)
      (fun _ w' => Linked w w' ⟨.statement, s₀⟩) w) :
    wp l.run (fun x w' => ∀ s, ⟨.statement, s⟩ ∈ x.toList ++ l.keeps held → w'.OwnCursors s)
      (fun _ w' => ∀ s, ⟨.statement, s⟩ ∈ held → w'.OwnCursors s) w := by
  refine hP.ownCursors_kept hPermits hNot hKeeps hRun fun w' hLinked hT s hs => ?_
  have hBinds : ∀ h, ¬ w.Reaches l (.binds h) := fun h hReach => by
    rcases (hReaches _).mp hReach with hEq | ⟨h, h', -, -, hEq⟩ <;> cases hEq
  by_cases heq : s = s₀
  · subst heq
    exact (hP.cursors s hs).step hT hLinked.1 hLinked.2 fun h hh =>
      hT.same (.binds h) ((hP.statement_below hs).2 h hh) (hBinds h)
  · refine hP.ownCursors hT hs (fun hReach => ?_) fun h _ => hBinds h
    rcases (hReaches _).mp hReach with hEq | ⟨h, h', -, -, hEq⟩
    · cases hEq
      exact heq rfl
    · cases hEq

/-- `Prepare`: nothing is registered for a new statement. -/
theorem Placed.ownCursors_prepare (sql : TString) :
    wp (SessionCall.call (.prepare sql)).run
      (fun x w' => ∀ s, ⟨.statement, s⟩ ∈ x.toList ++ held → w'.OwnCursors s)
      (fun _ w' => ∀ s, ⟨.statement, s⟩ ∈ held → w'.OwnCursors s) w := by
  have hOld : ∀ w', Touches w.fresh (w.Reaches (.call (.prepare sql))) w w' →
      ∀ s, ⟨.statement, s⟩ ∈ held → w'.OwnCursors s := fun w' hT s hs =>
    hP.ownCursors hT hs id fun _ _ => id
  rw [SessionCall.run, Call.run, wp_bind]
  refine wp_mono (touches_newStatement sql (Nat.le_refl _) hP.sound.cursors) ?_
    (fun _ w' hT => hOld w' hT)
  rintro s₀ w' ⟨hT, rfl, h, hPrepared⟩ s hs
  rcases List.mem_cons.mp hs with heq | hs
  · obtain rfl := congrArg Res.id heq
    intro h' hh e he
    obtain rfl := Option.some.inj (hPrepared.handle.symm.trans hh)
    rw [hPrepared.state] at he
    exact absurd he List.not_mem_nil
  · exact hOld w' hT s hs

/-- `Bind` registers for its own statement only. -/
theorem Placed.ownCursors_statementBind {s₀ : Nat} {name : TString} {type : DataType}
    (hPermits : App.Permits ⟨w, held⟩ (.call (.bind s₀ name type))) :
    wp (SessionCall.call (.bind s₀ name type)).run
      (fun x w' => ∀ s, ⟨.statement, s⟩ ∈ x.toList ++ held → w'.OwnCursors s)
      (fun _ w' => ∀ s, ⟨.statement, s⟩ ∈ held → w'.OwnCursors s) w := by
  have hs₀ : ⟨.statement, s₀⟩ ∈ held := hPermits _ rfl
  refine hP.ownCursors_kept (P := fun w' => w'.OwnCursors s₀) hPermits (fun _ h => by cases h) rfl
    ?_ fun w' hBound hT s hs => ?_
  · obtain ⟨hOld, hLt⟩ := hP.statement_below hs₀
    rw [SessionCall.run, Call.run, wp_bind]
    exact ownCursors_bind (hP.cursors s₀ hs₀) hOld hLt hP.sound.cursors name type
  · by_cases heq : s = s₀
    · exact heq ▸ hBound
    · refine hP.ownCursors hT hs ?_ fun h hh => ?_
      · rintro (hEq | ⟨h, -, hEq⟩)
        · cases hEq
          exact heq rfl
        · cases hEq
      · rintro (hEq | ⟨h', hh', hEq⟩)
        · cases hEq
        · cases hEq
          have hOwner := hP.sound.owner_unique hs hs₀ (mem_owned_stmtHandle hh)
            (mem_owned_stmtHandle hh')
          exact heq (congrArg Res.id hOwner).symm

/-- A release: the statements that are held on are not the object. -/
theorem Placed.ownCursors_release {x : Res} (hx : x ∈ held) :
    wp (SessionCall.call (.release x)).run
      (fun y w' => ∀ s, ⟨.statement, s⟩ ∈ y.toList ++ held.erase x → w'.OwnCursors s)
      (fun _ w' => ∀ s, ⟨.statement, s⟩ ∈ held → w'.OwnCursors s) w := by
  rw [SessionCall.run, Call.run, wp_bind]
  refine wp_mono (hP.sound.touches_release hx) (fun _ w' hT s hs => ?_)
    (fun _ _ hFalse => hFalse.elim)
  refine hP.ownCursors (l := .call (.release x)) hT (List.mem_of_mem_erase hs) ?_ fun h _ => ?_
  · rintro ⟨y, hy, hEq⟩
    cases hEq
    exact hP.sound.apart hx hs _ hy (mem_owned_self w _)
  · rintro ⟨y, -, hEq⟩
    cases hEq

/-- **Every call** leaves the registered cursors with the parameters of their
statements. -/
theorem Placed.cursors_call (l : SessionCall) (hPermits : App.Permits ⟨w, held⟩ l) :
    wp l.run (fun x w' => ∀ s, ⟨.statement, s⟩ ∈ x.toList ++ l.keeps held → w'.OwnCursors s)
      (fun _ w' => ∀ s, ⟨.statement, s⟩ ∈ held → w'.OwnCursors s) w := by
  cases l with
  | call l =>
    cases l with
    | execute sql =>
      exact hP.ownCursors_left hPermits (fun _ h => by cases h) rfl fun s => ⟨id, fun _ => id⟩
    | prepare sql => exact hP.ownCursors_prepare sql
    | select sql F =>
      exact hP.ownCursors_left hPermits (fun _ h => by cases h) rfl fun s => ⟨id, fun _ => id⟩
    | bind s₀ name type => exact hP.ownCursors_statementBind hPermits
    | stmtExecute s₀ =>
      refine hP.ownCursors_executed hPermits (fun _ h => by cases h) rfl (fun _ => Iff.rfl) ?_
      have hSame : ∀ {w'}, Executing s₀ w w' → Linked w w' ⟨.statement, s₀⟩ := fun hEx => by
        show _ ∧ _
        rw [hEx.stmts]
        simp
      rw [SessionCall.run, Call.run, wp_bind]
      exact wp_mono (wp_executePrepared s₀) (fun _ _ h => hSame h.1) (fun _ _ h => hSame h)
    | stmtSelect s₀ F =>
      have hs₀ : s₀ < w.fresh := (hP.statement_below (hPermits _ rfl)).1
      refine hP.ownCursors_executed hPermits (fun _ h => by cases h) rfl (fun _ => Iff.rfl) ?_
      rw [SessionCall.run, Call.run, wp_bind]
      exact wp_mono (gains_selectWith s₀ F hP.sound.cursors)
        (fun _ _ h => h.1.conserves.linked ⟨.statement, s₀⟩ hs₀)
        (fun _ _ h => h.linked ⟨.statement, s₀⟩ hs₀)
    | next r =>
      exact hP.ownCursors_left hPermits (fun _ h => by cases h) rfl fun s =>
        ⟨(not_nextReaches r s 0 w).1, fun h => (not_nextReaches r s h w).2⟩
    | release x => exact hP.ownCursors_release (hPermits x rfl)
  | register s₀ p l =>
    refine hP.ownCursors_left hPermits (fun _ h => by cases h) rfl fun s =>
      ⟨fun hEq => ?_, fun h hEq => ?_⟩ <;> cases hEq
  | toResultSet s₀ p =>
    refine hP.ownCursors_left hPermits (fun _ h => by cases h) rfl fun s => ⟨?_, fun h => ?_⟩
    · rintro (hEq | ⟨h, -, hEq⟩) <;> cases hEq
    · rintro (hEq | ⟨h, -, hEq⟩) <;> cases hEq
  | cursorNext s₀ p =>
    refine hP.ownCursors_left hPermits (fun _ h => by cases h) rfl fun s => ⟨?_, fun h => ?_⟩
    · rintro ⟨r, -, hReach⟩
      exact (not_nextReaches r s 0 w).1 hReach
    · rintro ⟨r, -, hReach⟩
      exact (not_nextReaches r s h w).2 hReach

end Kept

-- ---------------------------------------------------------------------------
-- The start of a session
-- ---------------------------------------------------------------------------

/-- No result set is made, and no position is defined. -/
structure World.Bare (cfg : Setting) (w : World) : Prop where
  cfg     : w.cfg = cfg
  columns : ∀ r, (w.rsets r).m_columns = []
  handles : ∀ r, (w.rsets r).m_rsHandle = none
  defines : ∀ h pos, (w.oci.stmt h).defines pos = none

section Bare

variable {cfg : Setting}

theorem World.Bare.of_eq (h : w.Bare cfg) (hCfg : w'.cfg = w.cfg) (hRsets : w'.rsets = w.rsets)
    (hStmt : w'.oci.stmt = w.oci.stmt) : w'.Bare cfg where
  cfg := hCfg.trans h.cfg
  columns r := by
    rw [hRsets]
    exact h.columns r
  handles r := by
    rw [hRsets]
    exact h.handles r
  defines hd pos := by
    rw [hStmt]
    exact h.defines hd pos

theorem World.Bare.columnsPlaced (h : w.Bare cfg) : w.ColumnsPlaced := by
  refine ⟨fun hd pos c hDefined => ?_, fun r c hc => ?_⟩
  · rw [h.defines] at hDefined
    cases hDefined
  · rw [h.columns] at hc
    exact absurd hc List.not_mem_nil

theorem bare_pass (rs : List Res) (call : OciCall) :
    Respects (Keep (World.Bare cfg)) (do pass rs; answer call) := fun _ h => h.of_eq rfl rfl rfl

/-- A call that changes at most a flag of a server or a session. -/
theorem bare_flag (rs : List Res) (call : OciCall) {f : Oci → Oci}
    (hf : ∀ oci, (f oci).stmt = oci.stmt) :
    Respects (Keep (World.Bare cfg)) (do
      pass rs
      let r ← answer call
      if r.done then modifyOci f
      return r) := by
  refine respects_keep fun w h => ?_
  simp only [wp_bind, wp_pass, wp_answer, wp_ite, wp_modifyOci, wp_pure]
  split
  · exact h.of_eq rfl rfl (hf _)
  · exact h.of_eq rfl rfl rfl

theorem bare_alloc (env : Option Nat) (k : Kind) {store : Nat → World → World}
    (hStore : ∀ h w, (store h w).cfg = w.cfg ∧ (store h w).rsets = w.rsets ∧
      (store h w).oci = w.oci) :
    Respects (Keep (World.Bare cfg)) (ociHandleAlloc env k store) := by
  refine respects_keep fun w h => ?_
  simp only [ociHandleAlloc, wp_bind, wp_pass, wp_answer, wp_ite, wp_acquire, wp_modifyStmtState,
    wp_modify, wp_pure]
  split
  · obtain ⟨hCfg, hRsets, hOci⟩ := hStore w.fresh { w with
      oci := { w.oci with stmt := Function.update w.oci.stmt w.fresh {} }
      fresh := w.fresh + 1
      trace := .acquire ⟨k, w.fresh⟩ (env.map (Res.mk .env)) ::
        ((ptr .env env).map .use ++ w.trace) }
    refine ⟨hCfg.trans h.cfg, fun r => ?_, fun r => ?_, fun hd pos => ?_⟩
    · rw [hRsets]
      exact h.columns r
    · rw [hRsets]
      exact h.handles r
    · rw [hOci]
      by_cases hh : hd = w.fresh
      · subst hh
        simp
      · simpa [hh] using h.defines hd pos
  · exact h.of_eq rfl rfl rfl

theorem bare_throw {α : Type} (result : OciResult) (handle : Option Nat) :
    Respects (Keep (World.Bare cfg)) (throwOnError result handle none : M α) ∧
      Respects (Keep (World.Bare cfg)) (throwOnEnv result handle none : M α) :=
  ⟨respects_keep fun _ h => wp_throwOnError fun _ _ => h.of_eq rfl rfl rfl,
    respects_keep fun _ h => wp_throwOnEnv fun _ _ => h.of_eq rfl rfl rfl⟩

theorem bare_openWith (args : OpenArgs) :
    Respects (Keep (World.Bare cfg)) (Connection.openWith args) := by
  unfold Connection.openWith
  have hF := frame_keep (World.Bare cfg)
  have hEnv : Respects (Keep (World.Bare cfg)) (ociEnvCreate setEnvHandle) := by
    refine respects_keep fun w h => ?_
    simp only [ociEnvCreate, wp_bind, wp_answer, wp_ite, wp_acquire, wp_modify, wp_pure]
    split <;> exact h.of_eq rfl rfl rfl
  have hPure : ∀ r : OciResult, Respects (Keep (World.Bare cfg)) (pure r : M OciResult) :=
    respects_pure hF
  refine respects_bind hF hEnv fun r₁ =>
    respects_bind hF (respects_get hF) fun w₁ =>
    respects_bind hF (respects_orThrow _ (bare_alloc _ _ fun _ _ => ⟨rfl, rfl, rfl⟩)
      (respects_throw hF _)) fun r₂ =>
    respects_bind hF (respects_andThen hF _ (bare_alloc _ _ fun _ _ => ⟨rfl, rfl, rfl⟩)) fun r₃ =>
    respects_bind hF (respects_get hF) fun w₂ =>
    respects_bind hF (respects_orThrow _ (bare_flag _ _ fun _ => rfl) (bare_throw _ _).2) fun r₄ =>
    respects_bind hF (respects_orThrow _ (bare_alloc _ _ fun _ _ => ⟨rfl, rfl, rfl⟩)
      (bare_throw _ _).1) fun r₅ =>
    respects_bind hF (respects_get hF) fun w₃ =>
    respects_bind hF (respects_orThrow _ (bare_pass _ _) (bare_throw _ _).2) fun r₆ =>
    respects_bind hF (respects_orThrow _ (bare_alloc _ _ fun _ _ => ⟨rfl, rfl, rfl⟩)
      (bare_throw _ _).1) fun r₇ =>
    respects_bind hF (respects_get hF) fun w₄ =>
    respects_bind hF (respects_orThrow _ (respects_ite (bare_pass _ _) (hPure _))
      (bare_throw _ _).2) fun r₈ =>
    respects_bind hF (respects_andThen hF _ (respects_ite (bare_pass _ _) (hPure _))) fun r₉ =>
    respects_bind hF (respects_andThen hF _ (bare_flag _ _ fun _ => rfl)) fun r₁₀ =>
    respects_bind hF (respects_andThen hF _ (bare_pass _ _)) fun r₁₁ =>
    respects_bind hF (respects_ite (bare_pass _ _) (hPure _)) fun r₁₂ =>
    respects_ite (respects_keep fun w h => h.of_eq rfl rfl rfl) (bare_throw _ _).1

theorem bare_freeStep (k : Kind) (handle : Connection → Option Nat)
    (before : Connection → Connection) (result : OciResult) :
    Respects (Keep (World.Bare cfg)) (Connection.freeStep k handle before result) := by
  refine respects_keep fun w h => ?_
  rw [Connection.freeStep, wp_bind, wp_get]
  dsimp only
  cases handle w.conn with
  | none => exact h
  | some p =>
    dsimp only
    rw [wp_ite]
    split
    · simp only [ociHandleFree, wp_bind, wp_modifyConn, wp_pass, wp_answer, wp_release, wp_pure]
      exact h.of_eq rfl rfl rfl
    · exact h

theorem bare_close : Respects (Keep (World.Bare cfg)) Connection.close := by
  have hF := frame_keep (World.Bare cfg)
  have hPure : ∀ r : OciResult, Respects (Keep (World.Bare cfg)) (pure r : M OciResult) :=
    respects_pure hF
  have hConn : ∀ f, Respects (Keep (World.Bare cfg)) (modifyConn f) := fun f =>
    respects_keep fun w h => h.of_eq rfl rfl rfl
  have hDetach : ∀ (c : Connection) (result : OciResult), Respects (Keep (World.Bare cfg))
      (result.andThen (ociServerDetach c.m_serverHandle c.m_errorHandle)) := fun c result =>
    respects_andThen hF result (bare_flag _ _ fun _ => rfl)
  have hEndSession : ∀ c : Connection, Respects (Keep (World.Bare cfg))
      (ociSessionEnd c.m_svcContextHandle c.m_errorHandle c.m_sessionHandle) := fun c =>
    bare_flag _ _ fun _ => rfl
  have hSession : Respects (Keep (World.Bare cfg)) Connection.closeSession := by
    refine respects_bind hF (respects_get hF) fun w => ?_
    dsimp only
    have hRest := respects_ite (c := w.conn.m_svcContextHandle.isSome = true ∧
        w.conn.m_errorHandle.isSome = true)
      (respects_ite (c := w.conn.m_sessionHandle.isSome = true)
        (respects_bind hF (hEndSession w.conn) fun r => hDetach w.conn r)
        (hDetach w.conn .success)) (hPure .success)
    exact respects_ite (respects_bind hF (bare_pass _ _) fun _ => hRest) hRest
  unfold Connection.close Connection.releaseHandles
  refine respects_bind hF ?_ fun r => respects_ite (hConn _) (respects_pure hF _)
  exact respects_bind hF hSession fun r₁ =>
    respects_bind hF (bare_freeStep _ _ _ _) fun r₂ =>
    respects_bind hF (bare_freeStep _ _ _ _) fun r₃ =>
    respects_bind hF (bare_freeStep _ _ _ _) fun r₄ =>
    respects_bind hF (bare_freeStep _ _ _ _) fun r₅ =>
    respects_bind hF (respects_get hF) fun w₁ =>
    respects_bind hF (bare_freeStep _ _ _ _) fun r₆ =>
    respects_ite (respects_bind hF (hConn _) fun _ => hPure r₆) (hPure r₆)

/-- **A session starts** without result sets. -/
theorem bare_opened (cfg : Setting) (before : List ConnCall) :
    (App.opened cfg before).w.Bare cfg := by
  refine run_invariant (I := fun s : ConnRun => s.w.Bare cfg) (fun s l h => ?_)
    ⟨rfl, fun _ => rfl, fun _ => rfl, fun _ _ => rfl⟩ before
  cases l with
  | «open» args o =>
    rw [ConnRun.step]
    split
    · exact h
    · split
      · rename_i hRun
        exact of_wp_ok (bare_openWith args (s.w.answering o)) hRun (h.of_eq rfl rfl rfl)
      · rename_i hRun
        exact of_wp_error (bare_openWith args (s.w.answering o)) hRun (h.of_eq rfl rfl rfl)
  | close o => exact wp_exec.mp (bare_close (s.w.answering o)) (h.of_eq rfl rfl rfl)

end Bare

theorem placed_opened (cfg : Setting) (before : List ConnCall) :
    Placed (App.opened cfg before).w (App.opened cfg before).held := by
  have hBare := bare_opened cfg before
  refine ⟨sound_opened cfg before, hBare.columnsPlaced, fun r h hh => ?_, fun _ hs =>
    absurd hs List.not_mem_nil⟩
  rw [hBare.handles] at hh
  cases hh

-- ---------------------------------------------------------------------------
-- Calls on different objects
-- ---------------------------------------------------------------------------

theorem Placed.answering (hP : Placed w held) (o : OciCall → OciResult) :
    Placed (w.answering o) held :=
  ⟨hP.sound.answering o, ⟨hP.columns.defines, hP.columns.columns⟩, hP.madeOn, hP.cursors⟩

/-- **One call** of a session keeps the parts in place. -/
theorem Placed.serve {a : App} (hP : Placed a.w a.held) (l : Served) :
    Placed (a.serve l).w (a.serve l).held := by
  have hw := hP.answering l.2
  have hColumns : ∀ {w'}, Touches a.w.fresh ((a.w.answering l.2).Reaches l.1)
      (a.w.answering l.2) w' → w'.ColumnsPlaced ∧
        ∀ r h, (w'.rsets r).m_rsHandle = some h → h < w'.fresh := fun hT =>
    ⟨hT.hosts.columnsPlaced hw.columns, fun r h hh => (hT.madeOn r h hh).elim
      (fun hOld => Nat.lt_of_lt_of_le (hw.madeOn r h hOld) hT.fresh) id⟩
  obtain ⟨hPlaced, hMadeOn⟩ := App.serve_of_wp (a := a) (l := l)
    (P := fun b => b.w.ColumnsPlaced ∧ ∀ r h, (b.w.rsets r).m_rsHandle = some h → h < b.w.fresh)
    (fun _ => ⟨hP.columns, hP.madeOn⟩) fun hPermits =>
      wp_mono (hw.sound.touches l.1 hPermits) (fun _ _ hT => hColumns hT)
        (fun _ _ hT => hColumns hT)
  refine ⟨hP.sound.serve l, hPlaced, hMadeOn, ?_⟩
  exact App.serve_of_wp (a := a) (P := fun b => ∀ s, ⟨.statement, s⟩ ∈ b.held → b.w.OwnCursors s)
    (fun _ => hP.cursors) fun hPermits => hw.cursors_call l.1 hPermits

/-- From `a` to `a'` nothing that concerns the held object `o` changed: what it
owns, the records of it, the fetches counted for its result sets, and the state
of its statement handles. Of the handles its result sets read from without owning
them the execution, the rows and the defines are the same; the placeholders are
those of the statement. Nothing of all this was released. -/
structure App.Undisturbed (a a' : App) (o : Res) : Prop where
  held    : o ∈ a'.held
  owned   : a'.w.owned o = a.w.owned o
  records : ∀ x ∈ a.w.owned o, SameAt a.w a'.w x
  fetches : ∀ r, ⟨.resultSet, r⟩ ∈ a.w.owned o →
    fetchesOf r a'.w.oci.log = fetchesOf r a.w.oci.log
  handles : ∀ h, ⟨.stmt, h⟩ ∈ a.w.owned o → a'.w.oci.stmt h = a.w.oci.stmt h
  cursors : ∀ h, a.w.SharesHandle o h →
    a'.w.oci.stmt h = { a.w.oci.stmt h with binds := (a'.w.oci.stmt h).binds }
  kept    : ∀ x ∈ a.w.owned o, Released a'.w.trace x ↔ Released a.w.trace x
  live    : ∀ h, a.w.SharesHandle o h →
    (Released a'.w.trace ⟨.stmt, h⟩ ↔ Released a.w.trace ⟨.stmt, h⟩)

/-- A held object stays held unless it is the one that is released. -/
theorem mem_keeps {l : SessionCall} {o : Res} (ho : o ∈ held) (hNot : l ≠ .call (.release o)) :
    o ∈ l.keeps held := by
  cases l with
  | call l =>
    cases l with
    | release x => exact (List.mem_erase_of_ne fun heq => hNot (by rw [heq])).mpr ho
    | _ => exact ho
  | _ => exact ho

/-- An object is undisturbed where the places that concern it are the same. -/
theorem App.undisturbed_of_sameIn {o : Res} {held' : List Res} (ho' : o ∈ held')
    (hSame : ∀ place : Place, w.Concerns o place → w.SameIn w' place) :
    App.Undisturbed ⟨w, held⟩ ⟨w', held'⟩ o := by
  have hObject : ∀ x ∈ w.owned o, w.SameIn w' (.object x) := fun x hx => hSame _ (.inl hx)
  have hCursor : ∀ h, w.SharesHandle o h →
      w'.oci.stmt h = { w.oci.stmt h with binds := (w'.oci.stmt h).binds } := fun h hShares =>
    hSame (.cursor h) (.inr ⟨h, hShares, .inl rfl⟩)
  refine ⟨ho', owned_congr fun x hx => (hObject x hx).1.linked, fun x hx => (hObject x hx).1,
    fun r hr => (hObject _ hr).2.1 rfl, fun h hh => ?_, hCursor, fun x hx => (hObject x hx).2.2,
    fun h hShares => ?_⟩
  · have hState := hCursor h (.inl hh)
    have hBinds : (w'.oci.stmt h).binds = (w.oci.stmt h).binds := hSame (.binds h) (.inl hh)
    rw [hBinds] at hState
    exact hState
  · have hHandle : w.SameIn w' (.object ⟨.stmt, h⟩) := hSame _ (.inr ⟨h, hShares, .inr rfl⟩)
    exact hHandle.2.2

theorem App.Undisturbed.refl {a : App} {o : Res} (ho : o ∈ a.held) : a.Undisturbed a o :=
  App.undisturbed_of_sameIn ho fun place _ => sameIn_refl a.w place

/-- **One call** leaves the other objects alone. -/
theorem Placed.serve_undisturbed {a : App} (hP : Placed a.w a.held) (l : Served) {o : Res}
    (ho : o ∈ a.held) (hOther : l.1.object ≠ some o) (hApart : a.w.HandlesApart o l.1) :
    a.Undisturbed (a.serve l) o := by
  have hw := hP.answering l.2
  have hNot : l.1 ≠ .call (.release o) := fun heq => hOther (by rw [heq]; rfl)
  have hSame : ∀ {w' held'}, App.Permits ⟨a.w.answering l.2, a.held⟩ l.1 → o ∈ held' →
      Touches a.w.fresh ((a.w.answering l.2).Reaches l.1) (a.w.answering l.2) w' →
      a.Undisturbed ⟨w', held'⟩ o := fun hPermits ho' hT =>
    App.undisturbed_of_sameIn ho' fun place hPlace =>
      hT.same place (hP.concerns_below ho hPlace)
        (hw.not_reaches hPermits ho hOther hApart hPlace)
  refine App.serve_of_wp (P := fun b => a.Undisturbed b o) (fun _ => .refl ho) fun hPermits => ?_
  refine wp_mono (hw.sound.touches l.1 hPermits) (fun x w' hT => ?_) (fun _ w' hT => ?_)
  · exact hSame hPermits (List.mem_append_right _ (mem_keeps ho hNot)) hT
  · exact hSame hPermits ho hT

/-- **Calls on different objects do not interfere.** A connection was opened and
closed any number of times before; then the application makes any calls of a
session, with any answers of OCI, catching what they throw. No call, whether it
returns or throws, disturbs an object the application holds and the call is not
made on — nor the statement handles the result sets of the object read from —
unless it uses one of these handles: a `Next` that reads from it, an execution
that opens a cursor on it, a `ToResultSet` of it, or the release of what owns
it. -/
theorem session_calls_local (cfg : Setting) (before : List ConnCall) (calls : List Served) :
    AllSteps App.serve (fun a l => ∀ o ∈ a.held, l.1.object ≠ some o → a.w.HandlesApart o l.1 →
      a.Undisturbed (a.serve l) o) (.opened cfg before) calls :=
  allSteps_of_invariant (I := fun a : App => Placed a.w a.held) (fun _ l hP => hP.serve l)
    (fun _ l hP _ ho hOther hApart => hP.serve_undisturbed l ho hOther hApart)
    (placed_opened cfg before) calls

end Epol
