import EpOraLibrary.Cursor.Select

/-!
# EpOraLibrary — calls conserve resources

* `Conserves n` — a call that leaves what objects below the number `n` own as
  it was, and whose acquisitions minus releases are a given list.
* `Gains` — a call that made one object: the list is what the object owns.
* `wp_newStatement`, `wp_newParameter`, `gains_selectWith` — the constructors
  and `Select` either gain the object they return or throw and gain nothing.
-/

namespace Epol

open Ledger Prog

variable {w w₁ w₂ : World} {n m : Nat} {xs ys own : List Res} {x : Res}

/-- From `w` to `w'` the resources `gained` were acquired and not released, and
all others that were acquired were released. What the objects below `n` own is
as it was, their result sets are on the same handles, and nothing below `n` that
was there has been released. -/
structure Conserves (n : Nat) (w w' : World) (gained : List Res) : Prop where
  conn     : w'.conn = w.conn
  fresh    : w.fresh ≤ w'.fresh
  linked   : ∀ y, y.id < n → Linked w w' y
  handles  : ∀ r < n, (w'.rsets r).m_rsHandle = (w.rsets r).m_rsHandle
  cursors  : ∀ m ≤ n, w.CursorsBelow m → w'.CursorsBelow m
  net      : ∀ x, net w'.trace x = net w.trace x + (gained.count x : Nat)
  minted   : Minted w.fresh w.trace → Minted w'.fresh w'.trace
  released : ∀ x, x.id < n → x.id < w.fresh → (Released w'.trace x ↔ Released w.trace x)

theorem Conserves.refl (n : Nat) (w : World) : Conserves n w w [] :=
  ⟨rfl, Nat.le_refl _, fun y _ => .refl w y, fun _ _ => rfl, fun _ _ hc => hc, fun _ => by simp, id,
    fun _ _ _ => Iff.rfl⟩

theorem Conserves.trans (h : Conserves n w w₁ xs) (h' : Conserves n w₁ w₂ ys) :
    Conserves n w w₂ (xs ++ ys) where
  conn := h'.conn.trans h.conn
  fresh := Nat.le_trans h.fresh h'.fresh
  linked y hy := (h.linked y hy).trans (h'.linked y hy)
  handles r hr := (h'.handles r hr).trans (h.handles r hr)
  cursors m hm hc := h'.cursors m hm (h.cursors m hm hc)
  net x := by
    rw [h'.net, h.net, List.count_append]
    push_cast
    omega
  minted hw := h'.minted (h.minted hw)
  released x hx hOld :=
    (h'.released x hx (Nat.lt_of_lt_of_le hOld h.fresh)).trans (h.released x hx hOld)

theorem Conserves.mono (h : Conserves n w w₁ xs) (hm : m ≤ n) : Conserves m w w₁ xs :=
  { h with
    linked := fun y hy => h.linked y (Nat.lt_of_lt_of_le hy hm)
    handles := fun r hr => h.handles r (Nat.lt_of_lt_of_le hr hm)
    cursors := fun k hk => h.cursors k (Nat.le_trans hk hm)
    released := fun x hx => h.released x (Nat.lt_of_lt_of_le hx hm) }

/-- What was gained is released again. -/
theorem Conserves.undo (h : Conserves n w w₁ own) (hF : Frees w₁ w₂ own own)
    (hNew : ∀ y ∈ own, n ≤ y.id ∧ y.id < w₁.fresh) : Conserves n w w₂ [] where
  conn := by rw [hF.same]; exact h.conn
  fresh := by rw [hF.same]; exact h.fresh
  linked y hy := (h.linked y hy).trans
    (hF.untouched y fun hm => absurd hy (Nat.not_lt_of_le (hNew y hm).1)).linked
  handles r hr := by
    have hSame : w₂.rsets r = w₁.rsets r := hF.untouched ⟨.resultSet, r⟩ fun hm =>
      absurd hr (Nat.not_lt_of_le (hNew _ hm).1)
    rw [hSame, h.handles r hr]
  cursors m hm hc := hF.cursors m (h.cursors m hm hc)
  net x := by
    rw [hF.net, h.net, List.count_nil]
    omega
  minted hw := hF.minted (fun y hy => (hNew y hy).2) (h.minted hw)
  released x hx hOld := (hF.released x fun hm =>
    absurd hx (Nat.not_lt_of_le (hNew x hm).1)).trans (h.released x hx hOld)

-- ---------------------------------------------------------------------------
-- Calls that gain nothing
-- ---------------------------------------------------------------------------

theorem Quiet.conserves (h : Quiet w w₁) (n : Nat) : Conserves n w w₁ [] where
  conn := by rw [h.same]
  fresh := h.fresh
  linked y _ := by
    rw [h.same]
    obtain ⟨kind, id⟩ := y
    cases kind <;> first | exact ⟨rfl, rfl⟩ | trivial
  handles r _ := by rw [h.same]
  cursors m _ hc := by rw [h.same]; exact hc
  net x := by simpa using h.net x
  minted := h.minted
  released x _ hx := h.released x hx

theorem Executing.conserves {s : Nat} (h : Executing s w w₁) (n : Nat) : Conserves n w w₁ [] where
  conn := by rw [h.same]
  fresh := by rw [h.same]
  linked := by
    rintro ⟨kind, id⟩ -
    have hStmts := h.stmts
    rw [h.same]
    cases kind with
    | statement =>
      show _ ∧ _
      rw [hStmts]
      by_cases hs : id = s
      · subst hs
        simp
      · simp [hs]
    | _ => first | exact ⟨rfl, rfl⟩ | trivial
  handles r _ := by rw [h.same]
  cursors m _ hc := by rw [h.same]; exact hc
  net x := by simpa using h.trace.net x
  minted hw := by
    rw [show w₁.fresh = w.fresh by rw [h.same]]
    exact h.trace.minted hw
  released x _ _ := h.trace.released x

theorem Reading.conserves {r : Nat} (h : Reading r w w₁) (n : Nat) : Conserves n w w₁ [] where
  conn := by rw [h.same]
  fresh := by rw [h.same]
  linked := by
    rintro ⟨kind, id⟩ -
    have hRsets := h.rsets
    rw [h.same]
    cases kind with
    | resultSet =>
      show _ ∧ _
      rw [hRsets]
      by_cases hr : id = r
      · subst hr
        simp
      · simp [hr]
    | _ => first | exact ⟨rfl, rfl⟩ | trivial
  handles r' _ := by
    rw [h.rsets]
    by_cases hr : r' = r
    · subst hr
      simp
    · simp [hr]
  cursors m _ hc := by
    refine hc.of_eq (fun p => by rw [h.same]) fun r' _ => ?_
    rw [h.rsets]
    by_cases hr : r' = r
    · subst hr
      simp
    · simp [hr]
  net x := by simpa using h.trace.net x
  minted hw := by
    rw [show w₁.fresh = w.fresh by rw [h.same]]
    exact h.trace.minted hw
  released x _ _ := h.trace.released x

theorem Apart.linked {r : Nat} {handle : Option Nat} (h : Apart w w₁ r handle) {y : Res}
    (hy : y.id < r) : Linked w w₁ y := by
  obtain ⟨kind, id⟩ := y
  cases kind with
  | resultSet =>
    show _ ∧ _
    rw [h.rsets id (Nat.ne_of_lt hy)]
    exact ⟨rfl, rfl⟩
  | statement =>
    show _ ∧ _
    rw [h.stmts]
    exact ⟨rfl, rfl⟩
  | parameter =>
    show _ ∧ _
    rw [h.params]
    exact ⟨rfl, rfl⟩
  | _ => trivial

/-- The result set is none of the older ones. -/
theorem Apart.cursorsBelow {r : Nat} {handle : Option Nat} (h : Apart w w₁ r handle) (hm : m ≤ r)
    (hc : w.CursorsBelow m) : w₁.CursorsBelow m :=
  hc.of_eq (fun p => by rw [h.params]) fun r' hr' => by
    rw [h.rsets r' (Nat.ne_of_lt (Nat.lt_of_lt_of_le hr' hm))]

theorem Abandoned.conserves {handle : Option Nat} (h : Abandoned w w₁ handle) :
    Conserves w.fresh w w₁ [] where
  conn := h.apart.conn
  fresh := h.fresh
  linked _ hy := h.apart.linked hy
  handles r hr := by rw [h.apart.rsets r (Nat.ne_of_lt hr)]
  cursors _ hm hc := h.apart.cursorsBelow hm hc
  net x := by simpa using h.net x
  minted := h.minted
  released x hx _ := h.released x hx

-- ---------------------------------------------------------------------------
-- Calls that make an object
-- ---------------------------------------------------------------------------

/-- What an object owns. -/
def World.owned (w : World) (x : Res) : List Res :=
  match x.kind with
  | .statement => w.stmtOwned x.id
  | .resultSet => w.rsOwned x.id
  | .parameter => w.paramOwned x.id
  | _ => [x]

theorem owned_congr (hLinked : ∀ y ∈ w.owned x, Linked w w₁ y) : w₁.owned x = w.owned x := by
  obtain ⟨kind, id⟩ := x
  cases kind with
  | statement => exact (stmtOwned_congr hLinked).2.1
  | resultSet => exact rsOwned_congr hLinked
  | parameter => exact (paramOwned_congr hLinked).1
  | _ => rfl

/-- The call made the object `x`: it owns all that was gained. -/
structure Gains (w w' : World) (x : Res) : Prop where
  conserves : Conserves w.fresh w w' (w'.owned x)
  new       : ∀ y ∈ w'.owned x, w.fresh ≤ y.id ∧ y.id < w'.fresh
  nodup     : (w'.owned x).Nodup

/-- What is not among the objects it owns changes nothing for the object. -/
theorem Gains.later (h : Gains w w₁ x) (h' : Conserves w.fresh w₁ w₂ [])
    (hLinked : ∀ y ∈ w₁.owned x, Linked w₁ w₂ y) : Gains w w₂ x := by
  have hOwned := owned_congr hLinked
  refine ⟨?_, fun y hy => ?_, ?_⟩
  · have hTrans := h.conserves.trans h'
    rwa [List.append_nil, ← hOwned] at hTrans
  · rw [hOwned] at hy
    exact ⟨(h.new y hy).1, Nat.lt_of_lt_of_le (h.new y hy).2 h'.fresh⟩
  · rw [hOwned]
    exact h.nodup

/-- A call that leaves what all objects own changes nothing. -/
theorem Gains.conserve (h : Gains w w₁ x) (h' : Conserves w₁.fresh w₁ w₂ []) : Gains w w₂ x :=
  h.later (h'.mono h.conserves.fresh) fun y hy => h'.linked y (h.new y hy).2

section Release

variable {E : OraError → World → Prop}

/-- `ReleaseObj` of an object, where nothing is owned twice and no result set
of a parameter has a statement. -/
theorem wp_releaseObj (depth : Nat) (hKind : x.kind = .statement ∨ x.kind = .resultSet ∨
      x.kind = .parameter) (hCursors : w.CursorsBelow n)
    (hNodup : (w.owned x).Nodup) :
    wp (releaseObj (depth + 5) x) (fun _ w' => Frees w w' (w.owned x) (w.owned x)) E w := by
  have hPlain : ∀ p, w.PlainCursor p := hCursors.plain
  obtain ⟨kind, id⟩ := x
  rcases hKind with rfl | rfl | rfl
  · exact wp_releaseStmt (depth + 1) id (fun p _ => hPlain p) hNodup
  · exact wp_releaseRs depth id (fun _ _ p _ => hPlain p) hNodup
  · exact wp_releaseParam (depth + 2) id (hPlain id) hNodup

/-- What a call made is released again. -/
theorem Gains.release (h : Gains w w₁ x) (depth : Nat) (hKind : x.kind = .statement ∨
      x.kind = .resultSet ∨ x.kind = .parameter)
    (hCursors : w.CursorsBelow w.fresh) :
    wp (releaseObj (depth + 5) x) (fun _ w' => Conserves w.fresh w w' []) E w₁ :=
  wp_mono (wp_releaseObj depth hKind (h.conserves.cursors _ (Nat.le_refl _) hCursors) h.nodup)
    (fun _ _ hF => h.conserves.undo hF h.new) (fun _ _ hE => hE)

/-- A constructor that throws releases what it has made of the object. -/
theorem wp_constructing {Q : Unit → World → Prop} {attach cleanUp : M Unit}
    (hClean : (cleanUp >>= fun _ => release x true) = releaseObj (1 + 5) x)
    (hAttach : wp attach Q (fun e w' => wp (releaseObj (1 + 5) x) (fun _ w'' => E e w'') E w') w) :
    wp (constructing x attach cleanUp) Q E w := by
  rw [constructing, wp_tryCatch]
  refine wp_mono hAttach (fun _ _ hQ => hQ) (fun e w' hE => ?_)
  rw [← hClean, wp_bind] at hE
  rw [wp_bind]
  exact hE

end Release

-- ---------------------------------------------------------------------------
-- Result sets
-- ---------------------------------------------------------------------------

/-- A call that gained nothing, and one that made an object. -/
theorem Conserves.gains (h : Conserves w.fresh w w₁ []) (h' : Gains w₁ w₂ x) : Gains w w₂ x where
  conserves := h.trans (h'.conserves.mono h.fresh)
  new y hy := ⟨Nat.le_trans h.fresh (h'.new y hy).1, (h'.new y hy).2⟩
  nodup := h'.nodup

theorem Building.gains {handle : Option Nat} {F : Nat} {ids : List Nat}
    (h : Building w w₁ w.fresh handle F ids) : Gains w w₁ ⟨.resultSet, w.fresh⟩ := by
  have hOwned : w₁.owned ⟨.resultSet, w.fresh⟩ =
      w₁.columnsOwned w.fresh ++ [⟨.resultSet, w.fresh⟩] := by
    simp [World.owned, World.rsOwned, h.rset.stmt]
  obtain ⟨hColumns, hNodup⟩ := h.owned
  refine ⟨⟨h.apart.conn, Nat.le_of_lt h.fresh, fun _ hy => h.apart.linked hy,
    fun r hr => by rw [h.apart.rsets r (Nat.ne_of_lt hr)],
    fun _ hm hc => h.apart.cursorsBelow hm hc, fun x => ?_, h.minted,
    fun x hx _ => h.released x hx⟩, fun y hy => ?_, hOwned ▸ hNodup⟩
  · rw [h.net, hOwned, hColumns, List.count_append, List.count_singleton]
    by_cases hx : (⟨.resultSet, w.fresh⟩ : Res) = x
    · simp only [hx, beq_self_eq_true, if_true]
      push_cast
      omega
    · simp only [hx, beq_iff_eq, if_false]
      omega
  · rw [hOwned, hColumns] at hy
    rcases List.mem_append.mp hy with hy | hy
    · obtain ⟨id, hid, rfl⟩ := List.mem_map.mp hy
      exact ⟨Nat.le_of_lt (h.new id hid).1, (h.new id hid).2⟩
    · rw [List.mem_singleton.mp hy]
      exact ⟨Nat.le_refl _, h.fresh⟩

/-- **`Statement::Select`** gains the result set it returns; when it throws,
what it made has been released. -/
theorem gains_selectWith (s fetchSize : Nat) (hCursors : w.CursorsBelow w.fresh) :
    wp (Statement.selectWith s fetchSize)
      (fun r w' => Gains w w' ⟨.resultSet, r⟩ ∧ (w'.rsets r).m_stmt = none)
      (fun _ w' => Conserves w.fresh w w' []) w := by
  refine wp_selectWith (fun _ we hEx => hEx.conserves _) (fun _ we wb hEx _ hA => ?_)
    fun we wb ids hEx _ hB => ?_
  · exact (hEx.conserves _).trans (hA.conserves.mono (hEx.conserves w.fresh).fresh)
  · have hGains := (hEx.conserves w.fresh).gains hB.building.gains
    refine wp_mono (reading_fetchRows we.fresh wb) (fun _ w' hw' => ?_) (fun _ w' hw' => ?_)
    · refine ⟨hGains.conserve (hw'.conserves _), ?_⟩
      rw [hw'.rsets, Function.update_self]
      exact hB.building.rset.stmt
    · exact (hGains.conserve (hw'.conserves _)).release 0 (.inr (.inl rfl)) hCursors

-- ---------------------------------------------------------------------------
-- Statements
-- ---------------------------------------------------------------------------

/-- The order of what was gained does not matter. -/
theorem Conserves.perm (h : Conserves n w w₁ xs) (hPerm : xs.Perm ys) : Conserves n w w₁ ys :=
  { h with net := fun x => by rw [h.net, hPerm.count_eq] }

theorem conserves_acquire (n : Nat) (w : World) (kind : Kind) {parent : Option Res}
    (hParent : ∀ p, parent = some p → p.kind = kind.parent) :
    Conserves n w { w with
      fresh := w.fresh + 1
      trace := .acquire ⟨kind, w.fresh⟩ parent :: w.trace } [⟨kind, w.fresh⟩] where
  conn := rfl
  fresh := Nat.le_succ _
  linked y _ := by
    obtain ⟨kind, id⟩ := y
    cases kind <;> first | exact ⟨rfl, rfl⟩ | trivial
  handles _ _ := rfl
  cursors _ _ hc := hc
  net x := by
    rw [net_acquire, List.count_singleton]
    by_cases hx : (⟨kind, w.fresh⟩ : Res) = x
    · simp [hx]
    · simp [hx]
  minted hw := hw.acquire kind hParent
  released _ _ _ := released_acquire

/-- Only the record of one statement changes, and what it owns only if it is
new. -/
theorem conserves_modifyStmt {s : Nat} (st : Statement)
    (hSame : s < n → st.m_stmtHandle = (w.stmts s).m_stmtHandle ∧
      st.m_parameters = (w.stmts s).m_parameters) :
    Conserves n w { w with stmts := Function.update w.stmts s st } [] where
  conn := rfl
  fresh := Nat.le_refl _
  linked := by
    rintro ⟨kind, id⟩ hid
    cases kind with
    | statement =>
      show _ ∧ _
      by_cases hs : id = s
      · subst hs
        simpa using hSame hid
      · simp [hs]
    | _ => first | exact ⟨rfl, rfl⟩ | trivial
  handles _ _ := rfl
  cursors _ _ hc := hc
  net x := by simp
  minted := id
  released _ _ _ := Iff.rfl

theorem conserves_modifyParam {p : Nat} (param : Parameter)
    (hSame : p < n → param.m_resultSet = (w.params p).m_resultSet ∧
      param.m_rsHandle = (w.params p).m_rsHandle)
    (hCursor : ∀ r, param.m_resultSet = some r → (w.params p).m_resultSet = some r) :
    Conserves n w { w with params := Function.update w.params p param } [] where
  conn := rfl
  fresh := Nat.le_refl _
  linked := by
    rintro ⟨kind, id⟩ hid
    cases kind with
    | parameter =>
      show _ ∧ _
      by_cases hp : id = p
      · subst hp
        simpa using hSame hid
      · simp [hp]
    | _ => first | exact ⟨rfl, rfl⟩ | trivial
  handles _ _ := rfl
  cursors m _ hc p' r hr := by
    refine hc p' r ?_
    by_cases hp : p' = p
    · subst hp
      exact hCursor r (by simpa using hr)
    · simpa [hp] using hr
  net x := by simp
  minted := id
  released _ _ _ := Iff.rfl

/-- The state behind the handles is no part of it. -/
theorem conserves_oci (n : Nat) (w : World) (oci : Oci) :
    Conserves n w { w with oci := oci } [] where
  conn := rfl
  fresh := Nat.le_refl _
  linked y _ := by
    obtain ⟨kind, id⟩ := y
    cases kind <;> first | exact ⟨rfl, rfl⟩ | trivial
  handles _ _ := rfl
  cursors _ _ hc := hc
  net x := by simp
  minted := id
  released _ _ _ := Iff.rfl

/-- An object made of the resources `xs`. -/
theorem Conserves.made (h : Conserves w.fresh w w₁ xs) (hOwned : (w₁.owned x).Perm xs)
    (hNew : ∀ y ∈ xs, w.fresh ≤ y.id ∧ y.id < w₁.fresh) (hNodup : xs.Nodup) : Gains w w₁ x where
  conserves := h.perm hOwned.symm
  new y hy := hNew y (hOwned.mem_iff.mp hy)
  nodup := hOwned.nodup_iff.mpr hNodup

/-- The world with one more statement handle. -/
def World.allocated (w : World) (env : Option Nat) : World :=
  { w with
    oci := { w.oci with stmt := Function.update w.oci.stmt w.fresh {} }
    fresh := w.fresh + 1
    trace := .acquire ⟨.stmt, w.fresh⟩ (env.map (Res.mk .env)) ::
      ((ptr .env env).map .use ++ w.trace) }

theorem conserves_allocated (w : World) (env : Option Nat) :
    Conserves w.fresh w (w.allocated env) [⟨.stmt, w.fresh⟩] := by
  have hAcquire := conserves_acquire w.fresh { w with
    trace := (ptr .env env).map .use ++ w.trace } .stmt
    fun p (hp : env.map (Res.mk .env) = some p) => by
      obtain ⟨h, -, rfl⟩ := Option.map_eq_some_iff.mp hp
      rfl
  exact (((quiet_uses w _).conserves w.fresh).trans hAcquire).trans (conserves_oci w.fresh _
    { w.oci with stmt := Function.update w.oci.stmt w.fresh {} })

/-- `OCIHandleAlloc` of a statement handle by its two outcomes. -/
theorem wp_allocStmt {Q : OciResult → World → Prop} {E : OraError → World → Prop}
    {env : Option Nat} {store : Nat → World → World}
    (hFail : w.outcome (.handleAlloc .stmt) ≠ .success →
      Q (w.outcome (.handleAlloc .stmt)) { w with trace := (ptr .env env).map .use ++ w.trace })
    (hOk : w.outcome (.handleAlloc .stmt) = .success →
      Q .success (store w.fresh (w.allocated env))) :
    wp (ociHandleAlloc env .stmt store) Q E w := by
  simp only [ociHandleAlloc, wp_bind, wp_pass, wp_answer, wp_ite, wp_acquire, wp_modifyStmtState,
    wp_modify, wp_pure]
  split
  · rename_i hSuccess
    rw [hSuccess]
    exact hOk hSuccess
  · rename_i hFailed
    exact hFail hFailed

/-- What `Prepare` makes of the new statement `s`. -/
structure Prepared (w w' : World) (s h : Nat) : Prop where
  gains      : Gains w w' ⟨.statement, s⟩
  handle     : (w'.stmts s).m_stmtHandle = some h
  parameters : (w'.stmts s).m_parameters = []
  map        : (w'.stmts s).m_parametersMap = []
  state      : w'.oci.stmt h = {}

theorem Prepared.quiet {s h : Nat} (hP : Prepared w w₁ s h) (hq : Quiet w₁ w₂) :
    Prepared w w₂ s h where
  gains := hP.gains.conserve (hq.conserves _)
  handle := by rw [hq.same]; exact hP.handle
  parameters := by rw [hq.same]; exact hP.parameters
  map := by rw [hq.same]; exact hP.map
  state := by rw [hq.same]; exact hP.state

/-- The type and the flags of the statement change. -/
theorem Prepared.modifyStmt {s h : Nat} (hP : Prepared w w₁ s h) (st : Statement)
    (hHandle : st.m_stmtHandle = (w₁.stmts s).m_stmtHandle)
    (hParameters : st.m_parameters = (w₁.stmts s).m_parameters)
    (hMap : st.m_parametersMap = (w₁.stmts s).m_parametersMap) :
    Prepared w { w₁ with stmts := Function.update w₁.stmts s st } s h where
  gains := hP.gains.conserve (conserves_modifyStmt st fun _ => ⟨hHandle, hParameters⟩)
  handle := by simp [hHandle, hP.handle]
  parameters := by simp [hParameters, hP.parameters]
  map := by simp [hMap, hP.map]
  state := hP.state

section Statement

variable {s : Nat}

/-- `prepare` gives the new statement its handle, or throws. -/
theorem wp_prepare (hG : Gains w w₁ ⟨.statement, s⟩) (hNew : w₁.stmts s = {}) (sql : TString) :
    wp (Statement.prepare s sql) (fun _ w' => ∃ h, Prepared w w' s h)
      (fun _ w' => Gains w w' ⟨.statement, s⟩) w₁ := by
  have hOwned : w₁.owned ⟨.statement, s⟩ = [⟨.statement, s⟩] := by
    simp [World.owned, World.stmtOwned, hNew, ptr]
  have hs : w.fresh ≤ s ∧ s < w₁.fresh := hG.new _ (by rw [hOwned]; exact List.mem_singleton_self _)
  rw [Statement.prepare, wp_bind, wp_get, wp_bind]
  refine wp_allocStmt (fun hFailed => ?_) (fun _ => ?_)
  · rw [wp_bind, wp_get, wp_bind, wp_orThrow, if_neg hFailed]
    exact wp_throwOnEnv fun rs _ => hG.conserve ((frame_quiet.trans (quiet_uses w₁ _)
      (quiet_uses _ rs)).conserves _)
  · -- the handle is the statement's from here on
    have hP : Prepared w (setStmtHandle s w₁.fresh (w₁.allocated w₁.conn.m_envHandle)) s
        w₁.fresh := by
      have hTrans := (hG.conserves.trans ((conserves_allocated w₁ w₁.conn.m_envHandle).mono
        hG.conserves.fresh)).trans (conserves_modifyStmt (s := s)
          { w₁.stmts s with m_stmtHandle := some w₁.fresh }
          fun hlt => absurd hlt (Nat.not_lt_of_le hs.1))
      rw [hOwned] at hTrans
      refine ⟨hTrans.made ?_ ?_ (by simp), ?_, ?_, ?_, ?_⟩
      · simp only [World.owned, World.stmtOwned, Function.update_self, hNew]
        exact List.Perm.swap ..
      · intro y hy
        simp only [List.cons_append, List.nil_append, List.append_nil, List.mem_cons,
          List.not_mem_nil, or_false] at hy
        rcases hy with rfl | rfl
        · exact ⟨hs.1, Nat.lt_succ_of_lt hs.2⟩
        · exact ⟨hG.conserves.fresh, Nat.lt_succ_self _⟩
      · simp [setStmtHandle]
      · simp [setStmtHandle, World.allocated, hNew]
      · simp [setStmtHandle, World.allocated, hNew]
      · simp [setStmtHandle, World.allocated]
    generalize setStmtHandle s w₁.fresh (w₁.allocated w₁.conn.m_envHandle) = w₂ at hP
    rw [wp_bind, wp_get, wp_bind, wp_orThrow, if_pos rfl]
    refine wp_mono (quiet_passAnswer _ _ w₂) (fun result w₃ hq => ?_)
      (fun _ w₃ hq => (hP.quiet hq).gains)
    have hP₃ := hP.quiet hq
    rw [wp_bind, wp_andThen]
    have hThrow : wp (throwOnError result w₁.conn.m_errorHandle none : M Unit)
        (fun _ w' => ∃ h, Prepared w w' s h) (fun _ w' => Gains w w' ⟨.statement, s⟩) w₃ :=
      wp_throwOnError fun rs _ => (hP₃.quiet (quiet_uses _ rs)).gains
    split
    · rw [wp_bind]
      refine wp_mono (quiet_passAnswer _ _ w₃) (fun result' w₄ hq₄ => ?_)
        (fun _ w₄ hq₄ => (hP₃.quiet hq₄).gains)
      rw [wp_bind, wp_modifyStmt, wp_pure, wp_ite]
      have hP₄ := (hP₃.quiet hq₄).modifyStmt { w₄.stmts s with
        m_stmtType := if result'.done then w₁.cfg.stmtTypeOf sql else .unknown } rfl rfl rfl
      split
      · rw [wp_modifyStmt]
        exact ⟨_, hP₄.modifyStmt _ rfl rfl rfl⟩
      · exact wp_throwOnError fun rs _ => (hP₄.quiet (quiet_uses _ rs)).gains
    · exact hThrow

/-- The new object before it is prepared. -/
theorem gains_startStatement (w : World) :
    Gains w { w with
      fresh := w.fresh + 1
      trace := .acquire ⟨.statement, w.fresh⟩ none :: w.trace
      stmts := Function.update w.stmts w.fresh {} } ⟨.statement, w.fresh⟩ := by
  have hC := (conserves_acquire w.fresh w .statement
    fun _ (hp : none = some _) => nomatch hp).trans
    (conserves_modifyStmt (s := w.fresh) {} fun hlt => absurd hlt (Nat.lt_irrefl _))
  refine hC.made ?_ ?_ (by simp)
  · simp [World.owned, World.stmtOwned, ptr]
  · intro y hy
    rw [List.append_nil] at hy
    rw [List.mem_singleton.mp hy]
    exact ⟨Nat.le_refl _, Nat.lt_succ_self _⟩

/-- **The constructor of a statement.** -/
theorem wp_newStatement (sql : TString) (hCursors : w.CursorsBelow w.fresh) :
    wp (Statement.new sql) (fun s w' => s = w.fresh ∧ ∃ h, Prepared w w' s h)
      (fun _ w' => Conserves w.fresh w w' []) w := by
  rw [Statement.new, wp_bind, wp_acquire, wp_bind, wp_modifyStmt, wp_bind]
  refine wp_constructing rfl (wp_mono (wp_prepare (gains_startStatement w) (by simp) sql)
    (fun _ w' hP => ?_) (fun e w' hG' => ?_))
  · exact ⟨rfl, hP⟩
  · exact hG'.release 1 (.inl rfl) hCursors

end Statement

end Epol
