import EpOraLibrary.Values.Layout
import EpOraLibrary.Values.Lookup

/-!
# EpOraLibrary — columns by name

`m_columnsMap` is keyed with the names as the server reports them;
`operator[] (const TCHAR*)` turns its argument into upper case before it looks
there. So a column is reached by its name exactly when the name has no letter
that `ToUpper` changes, while a name that is none of the columns', whatever the
case of its letters, is never found.

* `mapFind_columnsMap`, `mapFind_columnsMap_none` — what the map holds.
* `name_lookup_iff` — the columns of a result set by their names.
-/

namespace Epol

open Ledger Prog

-- ---------------------------------------------------------------------------
-- The map
-- ---------------------------------------------------------------------------

section Map

variable {cols : Nat → Column} {ids : List Nat} {key : TString} {c : Nat}

/-- What is found under a key is a column of that name. -/
theorem mapFind_columnsMap (hFind : mapFind key (columnsMap cols ids) = some c) :
    c ∈ ids ∧ (cols c).m_colName = key := by
  induction ids using List.reverseRecOn with
  | nil => cases hFind
  | append_singleton ids id ih =>
    rw [columnsMap_concat, mapFind_mapInsert] at hFind
    split at hFind
    · rename_i hKey
      rw [← Option.some.inj hFind, hKey]
      exact ⟨by simp, rfl⟩
    · exact ⟨List.mem_append_left _ (ih hFind).1, (ih hFind).2⟩

/-- Nothing is found under a key that is no column's name. -/
theorem mapFind_columnsMap_none :
    mapFind key (columnsMap cols ids) = none ↔ ∀ id ∈ ids, (cols id).m_colName ≠ key := by
  induction ids using List.reverseRecOn with
  | nil =>
    constructor
    · intro _ id hid
      exact absurd hid List.not_mem_nil
    · intro _
      rfl
  | append_singleton ids id ih =>
    rw [columnsMap_concat, mapFind_mapInsert, List.forall_mem_append, List.forall_mem_singleton]
    split
    · rename_i hKey
      constructor
      · intro hNone
        cases hNone
      · intro hAll
        exact absurd hKey.symm hAll.2
    · rename_i hKey
      rw [ih]
      exact ⟨fun hAll => ⟨hAll, Ne.symm hKey⟩, And.left⟩

end Map

-- ---------------------------------------------------------------------------
-- Lookup
-- ---------------------------------------------------------------------------

/-- `ToUpper` maps letters to upper case and leaves the rest alone. -/
def Uppercases (toUpper : TString → TString) : Prop :=
  ∃ up : TChar → TChar, (∀ ch, up (up ch) = up ch) ∧ ∀ s, toUpper s = s.map up

/-- An upper-case name is its own. -/
theorem Uppercases.idem {toUpper : TString → TString} (hUpper : Uppercases toUpper)
    (s : TString) : toUpper (toUpper s) = toUpper s := by
  obtain ⟨up, hIdem, hMap⟩ := hUpper
  rw [hMap s, hMap, List.map_map]
  refine List.map_congr_left fun ch _ => ?_
  exact hIdem ch

/-- The column at position `i` is reached by its own name: a column of that
name is returned, and where no other has it, the one the index gives. -/
def World.ReachedByName (toUpper : TString → TString) (w : World) (r i c : Nat) : Prop :=
  ∃ c', (w.rsets r).columnNamed toUpper (w.cols c).m_colName = .ok c' ∧
    (w.cols c').m_colName = (w.cols c).m_colName ∧
    ((∀ j d, (w.rsets r).m_columns[j]? = some d →
        (w.cols d).m_colName = (w.cols c).m_colName → j = i) →
      (w.rsets r).columnNo FIRST_COLUMN_NO (FIRST_COLUMN_NO + i) = .ok c')

section Lookup

variable {toUpper : TString → TString} {w : World} {r : Nat}

/-- The map of the result set is that of its columns. -/
def World.Mapped (w : World) (r : Nat) : Prop :=
  (w.rsets r).m_columnsMap = columnsMap w.cols (w.rsets r).m_columns

/-- What is returned for a name is a column of the name in upper case. -/
theorem columnNamed_ok (hMapped : w.Mapped r) {key : TString} {c : Nat}
    (hOk : (w.rsets r).columnNamed toUpper key = .ok c) :
    c ∈ (w.rsets r).m_columns ∧ (w.cols c).m_colName = toUpper key := by
  unfold ResultSet.columnNamed at hOk
  split at hOk
  · rename_i hFind
    rw [hMapped] at hFind
    rw [← Except.ok.inj hOk]
    exact mapFind_columnsMap hFind
  · cases hOk

theorem reachedByName_iff (hMapped : w.Mapped r) {i c : Nat}
    (hi : (w.rsets r).m_columns[i]? = some c) :
    w.ReachedByName toUpper r i c ↔ toUpper (w.cols c).m_colName = (w.cols c).m_colName := by
  constructor
  · rintro ⟨c', hOk, hName, -⟩
    rw [← (columnNamed_ok hMapped hOk).2, hName]
  · intro hUpper
    -- the name is a key of the map
    have hSome : mapFind (w.cols c).m_colName (w.rsets r).m_columnsMap ≠ none := by
      rw [hMapped, Ne, mapFind_columnsMap_none]
      exact fun hAll => hAll c (List.mem_of_getElem? hi) rfl
    obtain ⟨c', hFind⟩ := Option.ne_none_iff_exists'.mp hSome
    have hOk : (w.rsets r).columnNamed toUpper (w.cols c).m_colName = .ok c' := by
      unfold ResultSet.columnNamed
      rw [hUpper, hFind]
    obtain ⟨hMem, hName⟩ := columnNamed_ok hMapped hOk
    rw [hUpper] at hName
    refine ⟨c', hOk, hName, fun hUnique => ?_⟩
    obtain ⟨j, hj⟩ := List.getElem?_of_mem hMem
    obtain rfl := hUnique j c' hj hName
    obtain ⟨hLt, -⟩ := List.getElem?_eq_some_iff.mp hj
    unfold ResultSet.columnNo elementNo vectorAt FIRST_COLUMN_NO
    rw [if_neg (by omega), Nat.sub_zero, Nat.zero_add, hj]

theorem columnNamed_unknown (hMapped : w.Mapped r) (hUpper : Uppercases toUpper) {key : TString}
    (hKey : ∀ c ∈ (w.rsets r).m_columns, toUpper (w.cols c).m_colName ≠ toUpper key) :
    (w.rsets r).columnNamed toUpper key = .error (.oralib .columnNotFound (some key)) := by
  have hNone : mapFind (toUpper key) (w.rsets r).m_columnsMap = none := by
    rw [hMapped, mapFind_columnsMap_none]
    intro c hc hName
    refine hKey c hc ?_
    rw [hName, hUpper.idem]
  unfold ResultSet.columnNamed
  rw [hNone]

/-- **Lookup by name** in a result set: a column is reached by its own name
exactly when `ToUpper` leaves the name as it is, and a name that differs from
all of them in more than case is not found. -/
theorem name_lookup_iff (hUpper : Uppercases toUpper) {h fetchSize : Nat} {w' : World}
    (hNew : ResultSet.new (some h) fetchSize w = .ok r w') :
    (∀ i c, (w'.rsets r).m_columns[i]? = some c →
        (w'.ReachedByName toUpper r i c ↔
          toUpper (w'.cols c).m_colName = (w'.cols c).m_colName)) ∧
      ∀ key, (∀ c ∈ (w'.rsets r).m_columns, toUpper (w'.cols c).m_colName ≠ toUpper key) →
        (w'.rsets r).columnNamed toUpper key = .error (.oralib .columnNotFound (some key)) := by
  obtain ⟨rfl, ids, hBuilt⟩ := of_wp_ok (wp_newResultSet (some h) fetchSize) hNew
  have hMapped : w'.Mapped w.fresh := by
    unfold World.Mapped
    rw [hBuilt.building.map, hBuilt.building.rset.columns]
  exact ⟨fun i c hi => reachedByName_iff hMapped hi,
    fun key hKey => columnNamed_unknown hMapped hUpper hKey⟩

end Lookup

-- ---------------------------------------------------------------------------
-- Two aliases
-- ---------------------------------------------------------------------------

/-- `ToUpper` for the letters of ASCII. -/
def upperChar (ch : Nat) : Nat := if 97 ≤ ch ∧ ch ≤ 122 then ch - 32 else ch

def asciiUpper (s : TString) : TString := s.map upperChar

theorem uppercases_asciiUpper : Uppercases asciiUpper := by
  refine ⟨upperChar, fun ch => ?_, fun _ => rfl⟩
  unfold upperChar
  split
  · rw [if_neg (by omega)]
  · rfl

/-- `SELECT 1 AS ID, 2 AS "total" ...`; the freed names are still in place. -/
def twoAliases : Query where
  desc := [⟨tstr "ID", [], tstr "ID", SQLT_NUM, 22⟩, ⟨tstr "total", [], tstr "total", SQLT_NUM, 22⟩]
  rows := []

theorem new_twoAliases : ResultSet.new (some 1) FETCH_SIZE (executedOn twoAliases) =
    .ok 2 (builtOn twoAliases) :=
  eq_ok_of_result (by decide +kernel)

/-- The column `ID` is found. -/
theorem name_lookup_upper : (builtOn twoAliases).ReachedByName asciiUpper 2 0 4 :=
  ((name_lookup_iff uppercases_asciiUpper new_twoAliases).1 0 4 (by decide +kernel)).mpr
    (by decide +kernel)

/-- The column `total` is not. -/
theorem lower_case_unreachable : ¬ (builtOn twoAliases).ReachedByName asciiUpper 2 1 6 ∧
    ((builtOn twoAliases).rsets 2).columnNamed asciiUpper (tstr "total") =
      .error (.oralib .columnNotFound (some (tstr "total"))) := by
  have hThrown : ((builtOn twoAliases).rsets 2).columnNamed asciiUpper (tstr "total") =
      .error (.oralib .columnNotFound (some (tstr "total"))) := by
    decide +kernel
  have hName : ((builtOn twoAliases).cols 6).m_colName = tstr "total" := by decide +kernel
  refine ⟨?_, hThrown⟩
  rintro ⟨c, hOk, -⟩
  rw [hName, hThrown] at hOk
  cases hOk

end Epol
