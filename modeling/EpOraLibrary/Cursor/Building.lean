import EpOraLibrary.Model.Effects
import EpOraLibrary.Ownership.Frees

/-!
# EpOraLibrary — how a result set is built

`Building` is what holds at any point of the constructor of a `ResultSet`: all
that existed before is as it was, but for the defines of the handle, and the
new object owns one column for every turn of `describe` so far.

* `wp_describe`, `wp_define` — the two loops of `attach`.
* `wp_newResultSet` — the constructor either builds a result set with one
  column a position, or throws and has released all it acquired.
-/

namespace Epol

open Ledger Prog

variable {w w₁ w₂ : World} {r F : Nat} {handle : Option Nat} {ids : List Nat}

/-- A result set without rows so far. -/
structure ResultSet.Blank (rs : ResultSet) (handle : Option Nat) (F : Nat) (ids : List Nat) :
    Prop where
  columns : rs.m_columns = ids
  handle  : rs.m_rsHandle = handle
  stmt    : rs.m_stmt = none
  count   : rs.m_fetchCount = F
  fetched : rs.m_rowsFetched = 0
  current : rs.m_currentRow = 0
  eod     : rs.m_isEod = false

/-- The objects and the state of OCI at `w₁` are those at `w`, but for the
result set `r`, the columns made for it and the defines of its handle. -/
structure Apart (w w₁ : World) (r : Nat) (handle : Option Nat) : Prop where
  cfg     : w₁.cfg = w.cfg
  outcome : w₁.outcome = w.outcome
  conn    : w₁.conn = w.conn
  stmts   : w₁.stmts = w.stmts
  params  : w₁.params = w.params
  rsets   : ∀ r', r' ≠ r → w₁.rsets r' = w.rsets r'
  cols    : ∀ c, c < r → w₁.cols c = w.cols c
  oci     : w₁.oci = { w.oci with stmt := w₁.oci.stmt }
  stmt    : ∀ h, w₁.oci.stmt h = { w.oci.stmt h with defines := (w₁.oci.stmt h).defines }
  defines : ∀ h, handle ≠ some h → (w₁.oci.stmt h).defines = (w.oci.stmt h).defines

/-- A column of a type and a size, with its buffers. -/
def Column.sized (rs : Nat) (name : TString) (as : Nat × DataType × Nat) (fetchSize : Nat) :
    Column where
  m_colName := name
  m_colType := as.2.1
  m_ociType := as.1
  m_size := as.2.2
  m_indicators := some fetchSize
  m_dataLengths := if as.2.1 = .text then some fetchSize else none
  m_fetchBuffer := some (as.2.2 * fetchSize % 2 ^ 32)
  m_resultSet := some rs

/-- The column is the one the server describes by `desc`. -/
def Column.IsFor (col : Column) (cfg : Setting) (r F : Nat) (desc : ColumnDesc) : Prop :=
  ∃ freed as, Column.typeOf cfg.tcharSize (desc.ociType % 2 ^ 16) (desc.size % 2 ^ 16) = some as ∧
    col = { Column.sized r (desc.nameRead freed) as F with
      slots := col.slots
      valueSz := col.valueSz }

/-- A column steps by its size. -/
theorem Column.IsFor.stride {col : Column} {cfg : Setting} {desc : ColumnDesc}
    (hFor : col.IsFor cfg r F desc) : 0 < col.m_size ∧ col.stride = col.m_size := by
  obtain ⟨freed, as, hAs, hCol⟩ := hFor
  rw [hCol]
  rcases typeOf_cases hAs with rfl | rfl | rfl
  · exact ⟨(by decide : 0 < sizeofOciNumber), rfl⟩
  · exact ⟨(by decide : 0 < sizeofOciDate), rfl⟩
  · have hBelow := textSize_le (Nat.mod_lt desc.size (by decide : 0 < 2 ^ 16)) cfg.tcharSize_le
    have hPos : 0 < (desc.size % 2 ^ 16 + 1) * cfg.tcharSize :=
      Nat.mul_pos (Nat.succ_pos _) cfg.tcharSize_pos
    refine ⟨?_, rfl⟩
    show 0 < (desc.size % 2 ^ 16 + 1) * cfg.tcharSize % 2 ^ 32
    rw [Nat.mod_eq_of_lt (by omega)]
    exact hPos

/-- The map of a result set after the columns `ids`, by the names of `cols`. -/
def columnsMap (cols : Nat → Column) (ids : List Nat) : List (TString × Nat) :=
  ids.foldl (fun m id => mapInsert (cols id).m_colName id m) []

/-- The result set `r` is being built since `w`, so far with the columns `ids`. -/
structure Building (w w₁ : World) (r : Nat) (handle : Option Nat) (F : Nat) (ids : List Nat) :
    Prop where
  apart    : Apart w w₁ r handle
  rset     : (w₁.rsets r).Blank handle F ids
  fresh    : r < w₁.fresh
  nodup    : ids.Nodup
  new      : ∀ id ∈ ids, r < id ∧ id < w₁.fresh
  owner    : ∀ id ∈ ids, (w₁.cols id).m_resultSet = some r
  isFor    : ∀ h, handle = some h → ∀ c (hc : c < ids.length),
    (w₁.cols ids[c]).IsFor w.cfg r F ((w.oci.stmt h).query.desc.getD c default)
  named    : ∀ h, handle = some h → ∀ c (hc : c < ids.length),
    (w₁.cols ids[c]).m_colName = ((w.oci.stmt h).query.desc.getD c default).nameRead
      (w.outcome (.descriptorFree (c + 1)))
  map      : (w₁.rsets r).m_columnsMap = columnsMap w₁.cols ids
  net      : ∀ x, net w₁.trace x = net w.trace x +
    (if ⟨.resultSet, r⟩ = x then 1 else 0) + ((ids.map (Res.mk .column)).count x : Nat)
  minted   : Minted w.fresh w.trace → Minted w₁.fresh w₁.trace
  released : ∀ x, x.id < r → (Released w₁.trace x ↔ Released w.trace x)

theorem columnsMap_concat (cols : Nat → Column) (ids : List Nat) (id : Nat) :
    columnsMap cols (ids ++ [id]) = mapInsert (cols id).m_colName id (columnsMap cols ids) :=
  List.foldl_concat ..

/-- The map depends on the names of the columns listed only. -/
theorem columnsMap_congr {cols cols' : Nat → Column} {ids : List Nat}
    (h : ∀ id ∈ ids, (cols id).m_colName = (cols' id).m_colName) :
    columnsMap cols ids = columnsMap cols' ids := by
  refine List.foldl_ext _ _ _ fun m id hid => ?_
  rw [h id hid]

/-- Calls that only talk to OCI do not disturb. -/
theorem Apart.quiet (h : Apart w w₁ r handle) (hq : Quiet w₁ w₂) : Apart w w₂ r handle := by
  rw [hq.same]
  exact ⟨h.cfg, h.outcome, h.conn, h.stmts, h.params, h.rsets, h.cols, h.oci, h.stmt, h.defines⟩

theorem Building.quiet (h : Building w w₁ r handle F ids) (hq : Quiet w₁ w₂) :
    Building w w₂ r handle F ids where
  apart := h.apart.quiet hq
  rset := by
    rw [hq.same]
    exact h.rset
  fresh := Nat.lt_of_lt_of_le h.fresh hq.fresh
  nodup := h.nodup
  new id hid := ⟨(h.new id hid).1, Nat.lt_of_lt_of_le (h.new id hid).2 hq.fresh⟩
  owner := by
    rw [hq.same]
    exact h.owner
  isFor := by
    rw [hq.same]
    exact h.isFor
  named := by
    rw [hq.same]
    exact h.named
  map := by
    rw [hq.same]
    exact h.map
  net x := (hq.net x).trans (h.net x)
  minted hw := hq.minted (h.minted hw)
  released x hx := (hq.released x (Nat.lt_trans hx h.fresh)).trans (h.released x hx)

-- ---------------------------------------------------------------------------
-- Describe
-- ---------------------------------------------------------------------------

theorem wp_newColumn {Q : Nat → World → Prop} {E : OraError → World → Prop} {name : TString}
    {ociDataType maxDataSize fetchSize : Nat}
    (hOk : ∀ as, Column.typeOf w.cfg.tcharSize ociDataType maxDataSize = some as →
      Q w.fresh { w with
        fresh := w.fresh + 1
        trace := .acquire ⟨.column, w.fresh⟩ none :: w.trace
        cols := Function.update w.cols w.fresh (Column.sized r name as fetchSize) })
    (hFail : ∀ e w', Quiet w w' → E e w') :
    wp (Column.new r name ociDataType maxDataSize fetchSize) Q E w := by
  rw [Column.new, wp_bind, wp_acquire, wp_bind, wp_get]
  dsimp only
  split
  · rename_i hType
    rw [wp_bind, wp_modifyCol, wp_pure]
    exact hOk _ hType
  · rw [wp_bind, wp_release, wp_throw]
    exact hFail _ _ (Quiet.round (fun _ (hp : none = some _) => nomatch hp) [] true
      (frame_quiet.refl _))

/-- What holds at every position of a list holds after one more. -/
theorem forall_getElem_concat {α : Type} {l : List α} {a : α} {P : Nat → α → Prop}
    (h : ∀ c (hc : c < l.length), P c l[c]) (hLast : P l.length a) :
    ∀ c (hc : c < (l ++ [a]).length), P c (l ++ [a])[c] := by
  intro c hc
  rw [List.getElem_append]
  split
  · rename_i hOld
    exact h c hOld
  · rename_i hOld
    rw [List.length_append, List.length_singleton] at hc
    obtain rfl : c = l.length := by omega
    simpa using hLast

/-- The new column is added to the result set. -/
theorem Building.addColumn (h : Building w w₁ r handle F ids) {name : TString}
    {as : Nat × DataType × Nat} (hFor : ∀ h, handle = some h → (Column.sized r name as F).IsFor
      w.cfg r F ((w.oci.stmt h).query.desc.getD ids.length default))
    (hName : ∀ h, handle = some h → name = ((w.oci.stmt h).query.desc.getD ids.length
      default).nameRead (w.outcome (.descriptorFree (ids.length + 1)))) :
    Building w { w₁ with
      fresh := w₁.fresh + 1
      trace := .acquire ⟨.column, w₁.fresh⟩ none :: w₁.trace
      cols := Function.update w₁.cols w₁.fresh (Column.sized r name as F)
      rsets := Function.update w₁.rsets r { w₁.rsets r with
        m_columns := (w₁.rsets r).m_columns ++ [w₁.fresh]
        m_columnsMap := mapInsert name w₁.fresh (w₁.rsets r).m_columnsMap } }
      r handle F (ids ++ [w₁.fresh]) := by
  have hNew : ∀ id ∈ ids, id ≠ w₁.fresh := fun id hid => Nat.ne_of_lt (h.new id hid).2
  have hOld : ∀ id ∈ ids, Function.update w₁.cols w₁.fresh (Column.sized r name as F) id =
      w₁.cols id := fun id hid => Function.update_of_ne (hNew id hid) ..
  have hLast : Function.update w₁.cols w₁.fresh (Column.sized r name as F) w₁.fresh =
      Column.sized r name as F := Function.update_self ..
  refine ⟨⟨h.apart.cfg, h.apart.outcome, h.apart.conn, h.apart.stmts, h.apart.params,
    fun r' hr' => ?_, fun c hc => ?_, h.apart.oci, h.apart.stmt, h.apart.defines⟩, ?_, ?_, ?_, ?_,
    ?_, fun hd hHandle => ?_, fun hd hHandle => ?_, ?_, ?_, ?_, ?_⟩
  · exact (Function.update_of_ne hr' ..).trans (h.apart.rsets r' hr')
  · have hne : c ≠ w₁.fresh := Nat.ne_of_lt (Nat.lt_trans hc h.fresh)
    exact (Function.update_of_ne hne ..).trans (h.apart.cols c hc)
  · have hb := h.rset
    simp only [Function.update_self]
    exact ⟨by rw [hb.columns], hb.handle, hb.stmt, hb.count, hb.fetched, hb.current, hb.eod⟩
  · exact Nat.lt_succ_of_lt h.fresh
  · rw [List.nodup_append]
    exact ⟨h.nodup, List.nodup_singleton _, fun a ha b hb => by
      rw [List.mem_singleton.mp hb]
      exact hNew a ha⟩
  · refine List.forall_mem_append.mpr ⟨fun id hid => ?_, fun id hid => ?_⟩
    · exact ⟨(h.new id hid).1, Nat.lt_succ_of_lt (h.new id hid).2⟩
    · rw [List.mem_singleton.mp hid]
      exact ⟨h.fresh, Nat.lt_succ_self _⟩
  · refine List.forall_mem_append.mpr ⟨fun id hid => ?_, fun id hid => ?_⟩
    · simp only [hOld id hid]
      exact h.owner id hid
    · rw [List.mem_singleton.mp hid]
      simp only [hLast]
      rfl
  · refine forall_getElem_concat (P := fun c id => (Function.update w₁.cols w₁.fresh
      (Column.sized r name as F) id).IsFor w.cfg r F _) (fun c hc => ?_) ?_
    · rw [hOld _ (List.getElem_mem hc)]
      exact h.isFor hd hHandle c hc
    · rw [hLast]
      exact hFor hd hHandle
  · refine forall_getElem_concat (P := fun c id => (Function.update w₁.cols w₁.fresh
      (Column.sized r name as F) id).m_colName = _) (fun c hc => ?_) ?_
    · rw [hOld _ (List.getElem_mem hc)]
      exact h.named hd hHandle c hc
    · rw [hLast]
      exact hName hd hHandle
  · simp only [Function.update_self]
    rw [h.map, columnsMap_concat, hLast]
    exact congrArg (mapInsert name w₁.fresh)
      (columnsMap_congr fun id hid => congrArg Column.m_colName (hOld id hid).symm)
  · intro x
    rw [net_acquire, h.net, List.map_append, List.count_append]
    simp only [List.map_cons, List.map_nil, List.count_singleton, beq_iff_eq]
    by_cases hx : (⟨.column, w₁.fresh⟩ : Res) = x
    · simp only [hx, if_true]
      push_cast
      omega
    · simp only [hx, if_false]
      omega
  · exact fun hw => (h.minted hw).acquire .column fun _ hp => by cases hp
  · intro x hx
    rw [released_acquire]
    exact h.released x hx

/-- One turn of `describe` adds one column, or throws. -/
theorem wp_describeColumn (h : Building w w₁ r handle F ids) {i : Nat} (hi : i = ids.length) :
    wp (ResultSet.describeColumn r i)
      (fun _ w₂ => ∃ id, Building w w₂ r handle F (ids ++ [id]))
      (fun _ w₂ => Building w w₂ r handle F ids) w₁ := by
  rw [ResultSet.describeColumn, wp_bind, wp_get, wp_bind]
  refine wp_mono (wp_readParam _ _ _ w₁) (fun ⟨result, freed⟩ w₂ ⟨hq, hFreed⟩ => ?_)
    (fun _ w₂ hq => h.quiet hq)
  have h₂ := h.quiet hq
  simp only [wp_bind, wp_ite]
  split
  · exact wp_throwOnError fun rs _ => h₂.quiet (quiet_uses _ rs)
  · rename_i hSuccess
    have hFreed : freed = w.outcome (.descriptorFree (i + 1)) := by
      rw [← h.apart.outcome]
      exact hFreed (Classical.not_not.mp hSuccess)
    rw [h.rset.count]
    refine wp_newColumn (fun as hType => ?_) (fun _ _ hq => h₂.quiet hq)
    rw [wp_modifyRs]
    -- the description is that of the cursor the building began with
    refine ⟨_, h₂.addColumn (fun hd hHandle => ⟨freed, as, ?_, ?_⟩) fun hd hHandle => ?_⟩
    · rw [h₂.apart.cfg, h.rset.handle, hHandle, hi] at hType
      rw [World.describes, h.apart.stmt] at hType
      exact hType
    · rw [h.rset.handle, hHandle, hi, World.describes, h.apart.stmt]
    · rw [h.rset.handle, hHandle, hFreed, hi, World.describes, h.apart.stmt]

/-- A change of the result set that leaves it blank. -/
theorem Building.modifyRs (h : Building w w₁ r handle F ids) {rs : ResultSet}
    (hRs : rs.Blank handle F ids) (hMap : rs.m_columnsMap = (w₁.rsets r).m_columnsMap) :
    Building w { w₁ with rsets := Function.update w₁.rsets r rs } r handle F ids where
  apart := ⟨h.apart.cfg, h.apart.outcome, h.apart.conn, h.apart.stmts, h.apart.params,
    fun r' hr' => (Function.update_of_ne hr' ..).trans (h.apart.rsets r' hr'), h.apart.cols,
    h.apart.oci, h.apart.stmt, h.apart.defines⟩
  rset := by
    simp only [Function.update_self]
    exact hRs
  fresh := h.fresh
  nodup := h.nodup
  new := h.new
  owner := h.owner
  isFor := h.isFor
  named := h.named
  map := by
    simp only [Function.update_self]
    rw [hMap, h.map]
  net := h.net
  minted := h.minted
  released := h.released

theorem wp_columnsCount {handle : Option Nat} (hHandle : (w.rsets r).m_rsHandle = handle) :
    wp (ResultSet.columnsCount r) (fun count w' => Quiet w w' ∧
      ∀ h, handle = some h → count = (w.oci.stmt h).query.desc.length)
      (fun _ w' => Quiet w w') w := by
  subst hHandle
  have hUses := quiet_uses w (ptr .stmt (w.rsets r).m_rsHandle ++ ptr .error w.conn.m_errorHandle)
  simp only [ResultSet.columnsCount, ociParamCount, ociStmtAttrGet, wp_bind, wp_get, wp_pass,
    wp_answer]
  cases hHandle : (w.rsets r).m_rsHandle with
  | none =>
    rw [hHandle] at hUses
    simp only [wp_pure, wp_ite]
    split
    · exact ⟨hUses, fun h hh => by cases hh⟩
    · exact wp_throwOnError fun rs _ => frame_quiet.trans hUses (quiet_uses _ rs)
  | some h =>
    rw [hHandle] at hUses
    simp only [wp_pure, wp_ite]
    split
    · exact ⟨hUses, fun h' hh => by rw [← Option.some.inj hh]⟩
    · exact wp_throwOnError fun rs _ => frame_quiet.trans hUses (quiet_uses _ rs)

/-- **`describe`** makes one column for every position of the query. -/
theorem wp_describe (h : Building w w₁ r handle F []) :
    wp (ResultSet.describe r)
      (fun _ w₂ => ∃ ids, Building w w₂ r handle F ids ∧
        ∀ h, handle = some h → ids.length = (w.oci.stmt h).query.desc.length)
      (fun _ w₂ => ∃ ids, Building w w₂ r handle F ids) w₁ := by
  rw [ResultSet.describe, wp_bind]
  refine wp_mono (wp_columnsCount h.rset.handle) (fun count w₂ ⟨hq, hCount⟩ => ?_)
    (fun _ w₂ hq => ⟨[], h.quiet hq⟩)
  rw [wp_bind]
  refine wp_mono (wp_forM (fun done w₃ =>
    ∃ ids : List Nat, ids.length = done.length ∧ Building w w₃ r handle F ids) (List.range count)
    (fun done i rest w₃ hSplit ⟨ids, hLength, hB⟩ => ?_) ⟨[], rfl, h.quiet hq⟩)
    (fun _ w₃ ⟨ids, hLength, hB⟩ => ?_) (fun _ _ hE => hE)
  · have hTurn := (range_split hSplit).1
    refine wp_mono (wp_describeColumn hB (hTurn.trans hLength.symm)) (fun _ w₄ ⟨id, hB⟩ => ?_)
      (fun _ _ hB => ⟨ids, hB⟩)
    exact ⟨ids ++ [id], by simp [hLength], hB⟩
  · rw [wp_modifyRs]
    refine ⟨ids, hB.modifyRs ?_ rfl, fun h' hh => ?_⟩
    · obtain ⟨h₁, h₂, h₃, h₄, h₅, h₆, h₇⟩ := hB.rset
      exact ⟨h₁, h₂, h₃, h₄, h₅, h₆, h₇⟩
    · rw [hLength, List.length_range, hCount h' hh, h.apart.stmt]

-- ---------------------------------------------------------------------------
-- Define
-- ---------------------------------------------------------------------------

/-- The world in which a position of the handle `h` is defined on a column, with
elements of `size` bytes. -/
def World.defineOn (w : World) (h position col size : Nat) : World :=
  { w with
    cols := Function.update w.cols col { w.cols col with valueSz := size }
    oci := { w.oci with
      stmt := Function.update w.oci.stmt h { w.oci.stmt h with
        defines := Function.update (w.oci.stmt h).defines position (some col) } } }

/-- Of the columns only the size of an element is touched. -/
theorem cols_defineOn (w : World) (h position col size id : Nat) :
    (w.defineOn h position col size).cols id = { w.cols id with
      valueSz := ((w.defineOn h position col size).cols id).valueSz } := by
  unfold World.defineOn
  by_cases hId : id = col
  · subst hId
    simp only [Function.update_self]
  · simp only [Function.update_of_ne hId]

/-- A position of the handle is defined on a column of the result set. -/
theorem Building.define {h col : Nat} (hB : Building w w₁ r (some h) F ids) (hCol : col ∈ ids)
    (position size : Nat) : Building w (w₁.defineOn h position col size) r (some h) F ids where
  apart := by
    refine ⟨hB.apart.cfg, hB.apart.outcome, hB.apart.conn, hB.apart.stmts, hB.apart.params,
      hB.apart.rsets, fun c hc => ?_, ?_, fun h' => ?_, fun h' hne => ?_⟩
    · have hne : c ≠ col := Nat.ne_of_lt (Nat.lt_trans hc (hB.new col hCol).1)
      exact (Function.update_of_ne hne ..).trans (hB.apart.cols c hc)
    · unfold World.defineOn
      rw [hB.apart.oci]
    · unfold World.defineOn
      by_cases hh : h' = h
      · subst hh
        simp only [Function.update_self]
        rw [hB.apart.stmt]
      · simp only [Function.update_of_ne hh]
        exact hB.apart.stmt h'
    · have hh : h' ≠ h := fun heq => hne (by rw [heq])
      unfold World.defineOn
      simp only [Function.update_of_ne hh]
      exact hB.apart.defines h' hne
  rset := hB.rset
  fresh := hB.fresh
  nodup := hB.nodup
  new := hB.new
  owner id hid := by
    rw [cols_defineOn]
    exact hB.owner id hid
  isFor hd hh c hc := by
    obtain ⟨freed, as, hType, hFor⟩ := hB.isFor hd hh c hc
    refine ⟨freed, as, hType, ?_⟩
    rw [cols_defineOn, hFor]
  named hd hh c hc := by
    rw [cols_defineOn]
    exact hB.named hd hh c hc
  map := hB.map.trans (columnsMap_congr fun id _ => by rw [cols_defineOn])
  net := hB.net
  minted := hB.minted
  released := hB.released

/-- The call itself: the position is defined when it has done its work. -/
theorem wp_ociDefineByPos {E : OraError → World → Prop} {col : Nat}
    (hB : Building w w₁ r handle F ids) (hCol : col ∈ ids) (error : Option Nat)
    (position size : Nat) :
    wp (ociDefineByPos handle error position col size)
      (fun result w₂ => Building w w₂ r handle F ids ∧ (result = .success → ∀ h,
        handle = some h → w₂.oci.stmt = (w₁.defineOn h position col size).oci.stmt ∧
          w₂.cols = (w₁.defineOn h position col size).cols)) E w₁ := by
  have hUses := hB.quiet (quiet_uses w₁ (ptr .stmt handle ++ ptr .error error))
  simp only [ociDefineByPos, wp_bind, wp_pass, wp_answer, wp_ite, wp_pure]
  split
  · cases handle with
    | none => exact ⟨hUses, fun _ h hh => by cases hh⟩
    | some h =>
      refine ⟨hUses.define hCol position size, fun _ h' hh => ?_⟩
      obtain rfl := Option.some.inj hh
      exact ⟨rfl, rfl⟩
  · rename_i hDone
    refine ⟨hUses, fun hSuccess => ?_⟩
    rw [hSuccess] at hDone
    exact absurd rfl hDone

/-- One turn of `define` defines one position, or throws. -/
theorem wp_defineColumn {col : Nat} (hB : Building w w₁ r handle F ids) (hCol : col ∈ ids)
    (position : Nat) :
    wp (ResultSet.defineColumn r col position)
      (fun _ w₂ => Building w w₂ r handle F ids ∧ ∀ h, handle = some h →
        w₂.oci.stmt = (w₁.defineOn h position col (w₁.cols col).m_size).oci.stmt ∧
          w₂.cols = (w₁.defineOn h position col (w₁.cols col).m_size).cols)
      (fun _ w₂ => Building w w₂ r handle F ids) w₁ := by
  rw [ResultSet.defineColumn, wp_bind, wp_get, wp_bind, hB.rset.handle]
  refine wp_mono (wp_ociDefineByPos hB hCol _ _ _) (fun result w₂ ⟨hB₂, hDefined⟩ => ?_)
    (fun _ _ h => h)
  rw [wp_bind]
  refine wp_mono (Q := fun result' w₃ => Quiet w₂ w₃ ∧ (result' = .success → result = .success))
    ?_ (fun result' w₃ ⟨hq, hResult⟩ => ?_) (fun _ _ h => h)
  · rw [wp_ite]
    split
    · rw [wp_andThen]
      split
      · rename_i hSuccess
        exact ⟨quiet_uses _ _, fun _ => hSuccess⟩
      · exact ⟨frame_quiet.refl _, id⟩
    · exact ⟨frame_quiet.refl _, id⟩
  · rw [wp_ite]
    split
    · exact wp_throwOnError fun rs _ => (hB₂.quiet hq).quiet (quiet_uses _ rs)
    · rename_i hSuccess
      refine ⟨hB₂.quiet hq, fun h hh => ?_⟩
      rw [hq.same]
      exact hDefined (hResult (Classical.not_not.mp hSuccess)) h hh

/-- The position is defined on the column, whose elements are as far apart as
they are long. -/
def World.DefinedOn (w : World) (h position col : Nat) : Prop :=
  (w.oci.stmt h).defines position = some col ∧ (w.cols col).valueSz = (w.cols col).m_size

/-- **`define`** defines the positions on the columns in order. -/
theorem wp_define (hB : Building w w₁ r handle F ids) :
    wp (ResultSet.define r)
      (fun _ w₂ => Building w w₂ r handle F ids ∧ ∀ h, handle = some h →
        ∀ c (hc : c < ids.length), w₂.DefinedOn h (c + 1) ids[c])
      (fun _ w₂ => Building w w₂ r handle F ids) w₁ := by
  rw [ResultSet.define, wp_bind, wp_get, wp_bind, hB.rset.columns]
  refine wp_mono (wp_forM (fun done w₂ => Building w w₂ r handle F ids ∧ ∀ h, handle = some h →
    ∀ c (hc : c < ids.length), c < done.length → w₂.DefinedOn h (c + 1) ids[c])
    (ids.zipIdx 1) (fun done e rest w₂ hSplit ⟨hB₂, hDone⟩ => ?_)
    ⟨hB, fun h hh c hc hlt => absurd hlt (Nat.not_lt_zero c)⟩)
    (fun _ w₂ ⟨hB₂, hDone⟩ => ?_) (fun _ _ h => h)
  · -- the entry worked off is the column at the position of its turn
    obtain ⟨hLt, rfl⟩ := zipIdx_split hSplit
    refine wp_mono (wp_defineColumn hB₂ (List.getElem_mem hLt) _)
      (fun _ w₃ ⟨hB₃, hDefined⟩ => ?_) (fun _ _ h => h)
    refine ⟨hB₃, fun h hh c hc hlt => ?_⟩
    obtain ⟨hStmt, hCols⟩ := hDefined h hh
    simp only [List.length_append, List.length_cons, List.length_nil] at hlt
    unfold World.DefinedOn
    rw [hStmt, hCols]
    simp only [World.defineOn, Function.update_self]
    by_cases hc' : c = done.length
    · subst hc'
      simp only [Function.update_self, and_self]
    · have hCol : ids[c] ≠ ids[done.length] := fun heq =>
        hc' ((List.Nodup.getElem_inj_iff hB.nodup).mp heq)
      rw [Function.update_of_ne (by simpa using hc'), Function.update_of_ne hCol]
      exact hDone h hh c hc (by omega)
  · rw [wp_modifyRs]
    refine ⟨hB₂.modifyRs ?_ rfl, fun h hh c hc => hDone h hh c hc ?_⟩
    · obtain ⟨h₁, h₂, h₃, h₄, h₅, h₆, h₇⟩ := hB₂.rset
      exact ⟨h₁, h₂, h₃, h₄, h₅, h₆, h₇⟩
    · rw [List.length_zipIdx]
      exact hc

-- ---------------------------------------------------------------------------
-- The constructor
-- ---------------------------------------------------------------------------

/-- The constructor has thrown: all that existed before is as it was, but for
the defines of the handle, and all that was acquired has been released. -/
structure Abandoned (w w' : World) (handle : Option Nat) : Prop where
  apart    : Apart w w' w.fresh handle
  fresh    : w.fresh ≤ w'.fresh
  net      : ∀ x, net w'.trace x = net w.trace x
  minted   : Minted w.fresh w.trace → Minted w'.fresh w'.trace
  released : ∀ x, x.id < w.fresh → (Released w'.trace x ↔ Released w.trace x)

/-- What a result set that is being built owns. -/
theorem Building.owned (h : Building w w₁ r handle F ids) :
    w₁.columnsOwned r = ids.map (Res.mk .column) ∧
      (w₁.columnsOwned r ++ [(⟨.resultSet, r⟩ : Res)]).Nodup := by
  have hColumns : w₁.columnsOwned r = ids.map (Res.mk .column) := by
    rw [World.columnsOwned, h.rset.columns]
  refine ⟨hColumns, ?_⟩
  rw [hColumns, List.nodup_append]
  refine ⟨h.nodup.map fun a b hab => (Res.mk.inj hab).2, List.nodup_singleton _, ?_⟩
  intro a ha b hb heq
  obtain ⟨id, -, rfl⟩ := List.mem_map.mp ha
  rw [List.mem_singleton.mp hb] at heq
  cases (Res.mk.inj heq).1

/-- The release of a result set that is being built leaves nothing behind. -/
theorem Building.abandoned {own : List Res} (h : Building w w₁ w.fresh handle F ids)
    (hOwn : own = w₁.columnsOwned w.fresh ++ [⟨.resultSet, w.fresh⟩])
    (hF : Frees w₁ w₂ own own) : Abandoned w w₂ handle := by
  rw [h.owned.1] at hOwn
  have hFresh : w₂.fresh = w₁.fresh := by rw [hF.same]
  have hIds : ∀ x ∈ own, w.fresh ≤ x.id ∧ x.id < w₁.fresh := by
    intro x hx
    rw [hOwn] at hx
    rcases List.mem_append.mp hx with hx | hx
    · obtain ⟨id, hid, rfl⟩ := List.mem_map.mp hx
      exact ⟨Nat.le_of_lt (h.new id hid).1, (h.new id hid).2⟩
    · rw [List.mem_singleton.mp hx]
      exact ⟨Nat.le_refl _, h.fresh⟩
  refine ⟨?_, ?_, fun x => ?_, fun hw => hF.minted (fun x hx => (hIds x hx).2) (h.minted hw),
    fun x hx => ?_⟩
  · have hRs : ∀ r', r' ≠ w.fresh → w₂.rsets r' = w₁.rsets r' := fun r' hr' =>
      hF.untouched ⟨.resultSet, r'⟩ (by rw [hOwn]; simpa using hr')
    have hCols : ∀ c, c < w.fresh → w₂.cols c = w₁.cols c := fun c hc =>
      hF.untouched ⟨.column, c⟩ fun hm => absurd hc (Nat.not_lt_of_le (hIds _ hm).1)
    have hStmts : w₂.stmts = w₁.stmts := funext fun s =>
      hF.untouched ⟨.statement, s⟩ (by rw [hOwn]; simp)
    have hParams : w₂.params = w₁.params := funext fun p =>
      hF.untouched ⟨.parameter, p⟩ (by rw [hOwn]; simp)
    have hOci : w₂.oci = w₁.oci := by rw [hF.same]
    have ha := h.apart
    refine ⟨?_, ?_, ?_, hStmts.trans ha.stmts, hParams.trans ha.params,
      fun r' hr' => (hRs r' hr').trans (ha.rsets r' hr'),
      fun c hc => (hCols c hc).trans (ha.cols c hc), ?_, ?_, ?_⟩
    · rw [hF.same]
      exact ha.cfg
    · rw [hF.same]
      exact ha.outcome
    · rw [hF.same]
      exact ha.conn
    · rw [hOci]
      exact ha.oci
    · rw [hOci]
      exact ha.stmt
    · rw [hOci]
      exact ha.defines
  · rw [hFresh]
    exact Nat.le_of_lt h.fresh
  · rw [hF.net, h.net, hOwn, List.count_append, List.count_singleton]
    by_cases hx : (⟨.resultSet, w.fresh⟩ : Res) = x
    · simp only [hx, beq_self_eq_true, if_true]
      omega
    · simp only [hx, beq_iff_eq, if_false]
      omega
  · refine (hF.released x fun hm => ?_).trans (h.released x hx)
    exact absurd hx (Nat.not_lt_of_le (hIds x hm).1)

/-- The new object before its attachment. -/
theorem building_start (w : World) (handle : Option Nat) (F : Nat) (rs : ResultSet)
    (hRs : rs.Blank handle F []) (hMap : rs.m_columnsMap = []) :
    Building w { w with
      fresh := w.fresh + 1
      trace := .acquire ⟨.resultSet, w.fresh⟩ none :: w.trace
      rsets := Function.update w.rsets w.fresh rs } w.fresh handle F [] where
  apart := ⟨rfl, rfl, rfl, rfl, rfl, fun r' hr' => Function.update_of_ne hr' .., fun _ _ => rfl,
    rfl, fun _ => rfl, fun _ _ => rfl⟩
  rset := by
    simp only [Function.update_self]
    exact hRs
  fresh := Nat.lt_succ_self _
  nodup := List.nodup_nil
  new _ hid := nomatch hid
  owner _ hid := nomatch hid
  isFor _ _ _ hc := nomatch hc
  named _ _ _ hc := nomatch hc
  map := by
    simp only [Function.update_self]
    exact hMap
  net x := by
    rw [net_acquire]
    simp
  minted hw := hw.acquire .resultSet fun _ hp => nomatch hp
  released _ _ := released_acquire

/-- The result set `r` has been built since `w`. -/
structure Built (w w₁ : World) (r : Nat) (handle : Option Nat) (F : Nat) (ids : List Nat) :
    Prop where
  building : Building w w₁ r handle F ids
  length   : ∀ h, handle = some h → ids.length = (w.oci.stmt h).query.desc.length
  defined  : ∀ h, handle = some h → ∀ c (hc : c < ids.length), w₁.DefinedOn h (c + 1) ids[c]

/-- **The constructor** of a result set builds one column for every position
of the query, or throws and leaves nothing behind. -/
theorem wp_newResultSet (handle : Option Nat) (fetchSize : Nat) :
    wp (ResultSet.new handle fetchSize)
      (fun r w₁ => r = w.fresh ∧ ∃ ids, Built w w₁ r handle (fetchSize % 2 ^ 16) ids)
      (fun _ w₁ => Abandoned w w₁ handle) w := by
  rw [ResultSet.new, wp_bind, wp_acquire, wp_bind, wp_modifyRs, wp_bind, constructing, wp_tryCatch,
    ResultSet.attach, wp_bind, wp_modifyRs]
  simp only [Function.update_self, Function.update_idem]
  have hStart := building_start w handle (fetchSize % 2 ^ 16) {
    m_rsHandle := handle, m_fetchCount := fetchSize % 2 ^ 16 }
    ⟨rfl, rfl, rfl, rfl, rfl, rfl, rfl⟩ rfl
  -- whatever was built so far is released again
  have hClean : ∀ e w₁, (∃ ids, Building w w₁ w.fresh handle (fetchSize % 2 ^ 16) ids) →
      wp (do ResultSet.cleanUp w.fresh; release ⟨.resultSet, w.fresh⟩ true; throw e : M Unit)
        (fun _ _ => False) (fun _ w₂ => Abandoned w w₂ handle) w₁ := by
    rintro e w₁ ⟨ids, hB⟩
    have hStmt := hB.rset.stmt
    rw [wp_bind, ResultSet.cleanUp, graphDepth]
    refine wp_mono (wp_cleanUpRs 4 w.fresh (fun _ => [])
      (by simpa [hStmt] using hB.owned.2) fun s hs => by rw [hStmt] at hs; cases hs)
      (fun _ w₂ hF => ?_) (fun _ _ hE => hE)
    rw [wp_bind, wp_release, wp_throw]
    refine hB.abandoned rfl ?_
    simpa [hStmt] using hF.trans (frees_release w₂ [] ⟨.resultSet, w.fresh⟩ true)
  rw [wp_bind]
  refine wp_mono (wp_describe hStart) (fun _ w₁ ⟨ids, hB, hLength⟩ => ?_) (fun e w₁ hB => ?_)
  · refine wp_mono (wp_define hB) (fun _ w₂ ⟨hB₂, hDefined⟩ => ?_) (fun e w₂ hB₂ => ?_)
    · exact ⟨rfl, ids, hB₂, hLength, hDefined⟩
    · exact wp_mono (hClean e w₂ ⟨ids, hB₂⟩) (fun _ _ hFalse => hFalse.elim) (fun _ _ hE => hE)
  · exact wp_mono (hClean e w₁ hB) (fun _ _ hFalse => hFalse.elim) (fun _ _ hE => hE)

end Epol
