import EpOraLibrary.Cursor.Traversal
import EpOraLibrary.Model.Lookup
import EpOraLibrary.Ownership.Binding

/-!
# EpOraLibrary — columns and parameters by index

`operator[] (unsigned short)` checks the index against both numberings at once,
and leaves the rest to `vector::at`. Where the numbering begins at 1 this is
the range of the container; where it begins at 0, as it does, the index one
past the end gets through the check and `vector::at` throws.

* `elementNo_looksUp_iff` — one lookup.
* `index_lookup_iff`      — both lookups, over containers that list what was
  described or bound, in that order.
-/

namespace Epol

open Ledger Prog

/-- What a lookup of `index` among `items` is asked for: the element it stands
for, and otherwise an `OraError` of the given code. -/
structure LooksUp (first : Nat) (code : ErrorCode) (items : List Nat) (index : Nat)
    (result : Except Thrown Nat) : Prop where
  valid   : first ≤ index → index < first + items.length →
    ∃ item, items[index - first]? = some item ∧ result = .ok item
  invalid : ¬ (first ≤ index ∧ index < first + items.length) →
    ∃ format, result = .error (.oraError (.oralib code format))

/-- One lookup. -/
theorem elementNo_looksUp_iff {first : Nat} (hFirst : first = 0 ∨ first = 1) (code : ErrorCode)
    (items : List Nat) (index : Nat) :
    LooksUp first code items index (elementNo first code items index) ↔
      ¬ (first = 0 ∧ index = items.length) := by
  unfold elementNo vectorAt
  constructor
  · rintro hLooksUp ⟨rfl, rfl⟩
    obtain ⟨format, hThrown⟩ := hLooksUp.invalid (by omega)
    rw [if_neg (by omega), List.getElem?_eq_none (by omega)] at hThrown
    cases hThrown
  · intro hIndex
    constructor
    · intro hLow hHigh
      have hInside : index - first < items.length := by omega
      have hItem := List.getElem?_eq_getElem hInside
      refine ⟨items[index - first], hItem, ?_⟩
      rw [if_neg (by omega), hItem]
    · intro hOutside
      refine ⟨some (tstr "%d"), if_pos ?_⟩
      omega

-- ---------------------------------------------------------------------------
-- The order of the containers
-- ---------------------------------------------------------------------------

/-- A result set lists its columns in the order of the description. -/
theorem columns_inOrder {h r fetchSize : Nat} {w w' : World}
    (hNew : ResultSet.new (some h) fetchSize w = .ok r w') :
    (w'.rsets r).m_columns.length = (w.oci.stmt h).query.desc.length ∧
      ∀ i c, (w'.rsets r).m_columns[i]? = some c →
        (w'.cols c).IsFor w.cfg r (fetchSize % 2 ^ 16)
          ((w.oci.stmt h).query.desc.getD i default) := by
  obtain ⟨rfl, ids, hBuilt⟩ := of_wp_ok (wp_newResultSet (some h) fetchSize) hNew
  have hB := hBuilt.building
  rw [hB.rset.columns]
  refine ⟨hBuilt.length h rfl, fun i c hi => ?_⟩
  obtain ⟨hLt, rfl⟩ := List.getElem?_eq_some_iff.mp hi
  exact hB.isFor h rfl i hLt

/-- A parameter that is made leaves the statements alone. -/
theorem stmts_newParameter (s : Nat) (name : TString) (type : DataType) (w : World) :
    wp (Parameter.new s name type)
      (fun p w' => w'.stmts = w.stmts ∧ (w'.params p).m_paramName = name) (fun _ _ => True) w := by
  rw [Parameter.new, wp_bind, wp_acquire, wp_bind, wp_modifyParam, wp_bind]
  refine wp_constructing rfl (wp_mono (wp_attachParameter (attaching_start w s) name type) ?_
    (fun e w' _ => wp_trivial _ w'))
  rintro _ w' ⟨-, param, t, hTyped, hA⟩
  rw [wp_pure]
  refine ⟨hA.stmts, ?_⟩
  rw [hA.param, hTyped.name]

/-- A statement lists its parameters in the order of their binding. -/
theorem parameters_inOrder {s p : Nat} {name : TString} {type : DataType} {w w' : World}
    (hBind : Statement.bind s name type w = .ok p w') :
    (w'.stmts s).m_parameters = (w.stmts s).m_parameters ++ [p] := by
  have hWp : wp (Statement.bind s name type)
      (fun p w' => (w'.stmts s).m_parameters = (w.stmts s).m_parameters ++ [p])
      (fun _ _ => True) w := by
    rw [Statement.bind, wp_bind]
    refine wp_mono (stmts_newParameter s name type w) ?_ (fun _ _ _ => trivial)
    rintro p w₁ ⟨hStmts, -⟩
    rw [wp_bind, wp_get, wp_bind, wp_modifyStmt, wp_pure]
    simp only [Function.update_self, hStmts]
  have hAfter := of_wp_ok hWp hBind
  exact hAfter

-- ---------------------------------------------------------------------------
-- Both lookups
-- ---------------------------------------------------------------------------

/-- **Lookup by index**, for either numbering: an index is accepted as it
should be exactly when it is not one past the end of a numbering from 0; the
columns and the parameters stand in the order of description and binding. -/
theorem index_lookup_iff {first : Nat} (hFirst : first = 0 ∨ first = 1) (index : Nat) :
    (∀ rs : ResultSet,
      LooksUp first .columnNotFound rs.m_columns index (rs.columnNo first index) ↔
        ¬ (first = 0 ∧ index = rs.m_columns.length)) ∧
      (∀ st : Statement,
        LooksUp first .parameterNotFound st.m_parameters index (st.parameterNo first index) ↔
          ¬ (first = 0 ∧ index = st.m_parameters.length)) ∧
      (∀ (h r fetchSize : Nat) (w w' : World), ResultSet.new (some h) fetchSize w = .ok r w' →
        (w'.rsets r).m_columns.length = (w.oci.stmt h).query.desc.length ∧
          ∀ i c, (w'.rsets r).m_columns[i]? = some c →
            (w'.cols c).IsFor w.cfg r (fetchSize % 2 ^ 16)
              ((w.oci.stmt h).query.desc.getD i default)) ∧
      ∀ (s p : Nat) (name : TString) (type : DataType) (w w' : World),
        Statement.bind s name type w = .ok p w' →
          (w'.stmts s).m_parameters = (w.stmts s).m_parameters ++ [p] := by
  refine ⟨fun rs => ?_, fun st => ?_, fun h r fetchSize w w' hNew => ?_,
    fun s p name type w w' hBind => ?_⟩
  · exact elementNo_looksUp_iff hFirst .columnNotFound rs.m_columns index
  · exact elementNo_looksUp_iff hFirst .parameterNotFound st.m_parameters index
  · exact columns_inOrder hNew
  · exact parameters_inOrder hBind

/-- The only column, in a numbering from 1. -/
theorem index_lookup_from_one :
    LooksUp 1 .columnNotFound ((selectedOn threeRows).rsets 2).m_columns 1
      (((selectedOn threeRows).rsets 2).columnNo 1 1) :=
  ((index_lookup_iff (.inr rfl) 1).1 _).mpr (by decide)

/-- In the numbering from 0 of the library, the index behind the only column
is passed on to `vector::at`. -/
theorem index_past_end_escapes :
    ((selectedOn threeRows).rsets 2).columnNo FIRST_COLUMN_NO 1 = .error .outOfRange ∧
      ¬ LooksUp FIRST_COLUMN_NO .columnNotFound ((selectedOn threeRows).rsets 2).m_columns 1
        (((selectedOn threeRows).rsets 2).columnNo FIRST_COLUMN_NO 1) := by
  have hThrown : ((selectedOn threeRows).rsets 2).columnNo FIRST_COLUMN_NO 1 =
      .error .outOfRange := by decide +kernel
  refine ⟨hThrown, fun hLooksUp => ?_⟩
  have hLength : ((selectedOn threeRows).rsets 2).m_columns.length = 1 := by decide +kernel
  obtain ⟨format, hOra⟩ := hLooksUp.invalid (by rw [hLength]; decide)
  rw [hThrown] at hOra
  cases hOra

end Epol
