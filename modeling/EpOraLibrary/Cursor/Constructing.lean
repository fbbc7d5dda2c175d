import EpOraLibrary.Cursor.Select

/-!
# EpOraLibrary — when a result set can be built

The constructor of a `ResultSet` goes through a call to OCI for the number of
columns, four for the description of each and one or two for its define, and
throws at the first that does not answer `OCI_SUCCESS`.

* `World.Constructs` — what OCI has to answer.
* `newResultSet_constructs` — **the constructor returns exactly then**.
-/

namespace Epol

open Ledger Prog

variable {w w₁ : World} {r h F i : Nat} {ids : List Nat}

/-- How the column at the 0-based position `i` is fetched. -/
def World.typeAt (w : World) (h i : Nat) : Option (Nat × DataType × Nat) :=
  let desc := w.describes (some h) i
  Column.typeOf w.cfg.tcharSize (desc.ociType % 2 ^ 16) (desc.size % 2 ^ 16)

/-- The attributes of a descriptor that `describe` reads. -/
def describedAttrs : List Attr := [.name, .dataType, .dataSize]

/-- The column at position `i` can be described. -/
def World.Describable (w : World) (h i : Nat) : Prop :=
  (w.outcome (.paramGet (i + 1)) = .success ∧
    ∀ attr ∈ describedAttrs, w.outcome (.attrGet attr (i + 1)) = .success) ∧
  (w.typeAt h i).isSome

/-- The column at position `i` can be defined. -/
def World.Definable (w : World) (h i : Nat) : Prop :=
  w.outcome (.defineByPos (i + 1)) = .success ∧
    (w.cfg.unicode = true ∧ (w.typeAt h i).map (·.2.1) = some .text →
      w.outcome (.attrSet .charsetId (i + 1)) = .success)

/-- All columns of the cursor on the handle `h` can be described. -/
def World.AllDescribable (w : World) (h : Nat) : Prop :=
  w.outcome (.attrGet .paramCount 0) = .success ∧
    ∀ i < (w.oci.stmt h).query.desc.length, w.Describable h i

/-- A result set can be built on the handle `h`. -/
def World.Constructs (w : World) (h : Nat) : Prop :=
  w.AllDescribable h ∧ ∀ i < (w.oci.stmt h).query.desc.length, w.Definable h i

instance (w : World) (h i : Nat) : Decidable (w.Describable h i) :=
  inferInstanceAs (Decidable ((_ ∧ _) ∧ _))

instance (w : World) (h i : Nat) : Decidable (w.Definable h i) :=
  inferInstanceAs (Decidable (_ ∧ (_ → _)))

instance (w : World) (h : Nat) : Decidable (w.AllDescribable h) :=
  inferInstanceAs (Decidable (_ ∧ _))

instance (w : World) (h : Nat) : Decidable (w.Constructs h) :=
  inferInstanceAs (Decidable (_ ∧ _))

-- ---------------------------------------------------------------------------
-- Describe
-- ---------------------------------------------------------------------------

/-- The three attributes are read when nothing failed before. -/
theorem readAttrs_iff (result : OciResult) (param error : Option Nat) (pos : Nat) :
    wp (ResultSet.readAttrs result param error pos)
      (fun result' _ => result' = .success ↔ result = .success ∧
        ∀ attr ∈ describedAttrs, w.outcome (.attrGet attr pos) = .success)
      (fun _ _ => False) w := by
  simp only [ResultSet.readAttrs, ociParamAttrGet, wp_bind, wp_andThen, wp_pass, wp_answer,
    describedAttrs, List.forall_mem_cons, List.not_mem_nil, false_implies, implies_true, and_true]
  repeat' split
  all_goals simp_all

/-- A turn of `describe` reads a descriptor. -/
theorem readParam_iff (handle error : Option Nat) :
    wp (ResultSet.readParam handle error i)
      (fun out _ => out.1 = .success ↔ w.outcome (.paramGet (i + 1)) = .success ∧
        ∀ attr ∈ describedAttrs, w.outcome (.attrGet attr (i + 1)) = .success)
      (fun _ _ => False) w := by
  rw [ResultSet.readParam, wp_bind]
  simp only [ociParamGet, wp_bind, wp_pass, wp_answer, wp_ite, wp_acquire, wp_pure]
  split
  · refine wp_mono (readAttrs_iff _ _ _ _) (fun result w' hIff => ?_) (fun _ _ hFalse => hFalse)
    simp only [ociDescriptorFree, wp_bind, wp_pass, wp_answer, wp_release, wp_pure]
    exact hIff
  · exact wp_mono (readAttrs_iff _ _ _ _) (fun _ _ hIff => hIff) (fun _ _ hFalse => hFalse)

/-- What the server describes is the same while a result set is being built. -/
theorem Building.typeAt (hB : Building w w₁ r (some h) F ids) (i : Nat) :
    w₁.typeAt h i = w.typeAt h i := by
  rw [World.typeAt, World.typeAt, hB.apart.cfg, World.describes, World.describes, hB.apart.stmt]

theorem Building.describable (hB : Building w w₁ r (some h) F ids) (i : Nat) :
    w₁.Describable h i ↔ w.Describable h i := by
  rw [World.Describable, World.Describable, hB.typeAt, hB.apart.outcome]

/-- A column is made for a supported type. -/
theorem newColumn_iff {name : TString} {ociDataType maxDataSize fetchSize : Nat} :
    wp (Column.new r name ociDataType maxDataSize fetchSize)
      (fun _ _ => (Column.typeOf w.cfg.tcharSize ociDataType maxDataSize).isSome)
      (fun _ _ => ¬ (Column.typeOf w.cfg.tcharSize ociDataType maxDataSize).isSome) w := by
  rw [Column.new, wp_bind, wp_acquire, wp_bind, wp_get]
  dsimp only
  split
  · rename_i hType
    rw [wp_bind, wp_modifyCol, wp_pure, hType]
    rfl
  · rename_i hType
    rw [wp_bind, wp_release, wp_throw, hType]
    exact Bool.false_ne_true

/-- **One turn of `describe`** goes through where the column can be described. -/
theorem describeColumn_iff (hHandle : (w.rsets r).m_rsHandle = some h) :
    wp (ResultSet.describeColumn r i) (fun _ _ => w.Describable h i)
      (fun _ _ => ¬ w.Describable h i) w := by
  rw [ResultSet.describeColumn, wp_bind, wp_get, wp_bind]
  refine wp_mono (wp_and (readParam_iff _ _) (wp_readParam _ _ i w)) ?_
    (fun _ _ hFalse => hFalse.1.elim)
  rintro ⟨result, freed⟩ w₂ ⟨hIff, hq, -⟩
  have hCfg : w₂.cfg = w.cfg := by rw [hq.same]
  simp only [wp_bind, wp_ite]
  split
  · rename_i hFailed
    exact wp_throwOnError fun _ _ hDescribable => hFailed (hIff.mpr hDescribable.1)
  · rename_i hSuccess
    have hRead := hIff.mp (Classical.not_not.mp hSuccess)
    rw [hHandle]
    refine wp_mono newColumn_iff (fun col w₃ hSome => ?_) (fun _ w₃ hNone hDescribable => hNone ?_)
    · rw [wp_modifyRs]
      rw [hCfg] at hSome
      exact ⟨hRead, hSome⟩
    · rw [hCfg]
      exact hDescribable.2

/-- The number of columns is read when OCI answers. -/
theorem columnsCount_iff :
    wp (ResultSet.columnsCount r) (fun _ _ => w.outcome (.attrGet .paramCount 0) = .success)
      (fun _ _ => w.outcome (.attrGet .paramCount 0) ≠ .success) w := by
  simp only [ResultSet.columnsCount, ociParamCount, ociStmtAttrGet, wp_bind, wp_get, wp_pass,
    wp_answer]
  cases (w.rsets r).m_rsHandle with
  | none =>
    simp only [wp_pure, wp_ite]
    split
    · assumption
    · rename_i hFailed
      exact wp_throwOnError fun _ _ => hFailed
  | some h =>
    simp only [wp_pure, wp_ite]
    split
    · assumption
    · rename_i hFailed
      exact wp_throwOnError fun _ _ => hFailed

/-- `describe` goes through where all columns can be described. -/
theorem describe_iff (hB : Building w w₁ r (some h) F []) :
    wp (ResultSet.describe r) (fun _ _ => w.AllDescribable h)
      (fun _ _ => ¬ w.AllDescribable h) w₁ := by
  have hOutcome : w₁.outcome = w.outcome := hB.apart.outcome
  have hDesc : (w₁.oci.stmt h).query = (w.oci.stmt h).query := by rw [hB.apart.stmt]
  rw [ResultSet.describe, wp_bind]
  refine wp_mono (wp_and (wp_columnsCount hB.rset.handle) columnsCount_iff) ?_ ?_
  · rintro count w₂ ⟨⟨hq, hCount⟩, hAnswered⟩
    rw [hOutcome] at hAnswered
    have hLength := hCount h rfl
    rw [hDesc] at hLength
    rw [wp_bind]
    -- the turns so far have gone through
    refine wp_mono (wp_forM (E := fun _ _ => ¬ w.AllDescribable h) (fun done w₃ =>
      (∃ ids : List Nat, ids.length = done.length ∧ Building w w₃ r (some h) F ids) ∧
        ∀ i ∈ done, w.Describable h i) (List.range count) ?_
      ⟨⟨[], rfl, hB.quiet hq⟩, fun _ hi => absurd hi List.not_mem_nil⟩) ?_ (fun _ _ hE => hE)
    · rintro done i rest w₃ hSplit ⟨⟨ids, hDone, hB₃⟩, hGood⟩
      obtain ⟨hTurn, hLt⟩ := range_split hSplit
      refine wp_mono (wp_and (wp_describeColumn hB₃ (hTurn.trans hDone.symm))
        (describeColumn_iff hB₃.rset.handle)) ?_ ?_
      · rintro _ w₄ ⟨⟨id, hB₄⟩, hTurnGood⟩
        rw [hB₃.describable] at hTurnGood
        refine ⟨⟨ids ++ [id], by simp [hDone], hB₄⟩, fun j hj => ?_⟩
        rcases List.mem_append.mp hj with hj | hj
        · exact hGood j hj
        · rw [List.mem_singleton.mp hj]
          exact hTurnGood
      · rintro _ _ ⟨-, hBad⟩ hAll
        rw [hB₃.describable] at hBad
        exact hBad (hAll.2 i (hLength ▸ hLt))
    · rintro _ w₃ ⟨-, hGood⟩
      rw [wp_modifyRs]
      exact ⟨hAnswered, fun i hi => hGood i (List.mem_range.mpr (hLength ▸ hi))⟩
  · rintro _ w₂ ⟨-, hFailed⟩ hAll
    rw [hOutcome] at hFailed
    exact hFailed hAll.1

-- ---------------------------------------------------------------------------
-- Define
-- ---------------------------------------------------------------------------

/-- **One turn of `define`** goes through where the column can be defined. -/
theorem defineColumn_iff (hB : Building w w₁ r (some h) F ids) (hi : i < ids.length) :
    wp (ResultSet.defineColumn r ids[i] (i + 1)) (fun _ _ => w.Definable h i)
      (fun _ _ => ¬ w.Definable h i) w₁ := by
  obtain ⟨freed, as, hType, hCol⟩ := hB.isFor h rfl i hi
  have hText : ((w₁.cols ids[i]).m_colType = .text) =
      ((w.typeAt h i).map (·.2.1) = some .text) := by
    rw [World.typeAt, World.describes, hType, hCol]
    simp [Column.sized]
  have hOutcome : w₁.outcome = w.outcome := hB.apart.outcome
  have hCfg : w₁.cfg = w.cfg := hB.apart.cfg
  rw [ResultSet.defineColumn, wp_bind, wp_get, wp_bind, hB.rset.handle]
  refine wp_mono (Q := fun result w₂ => result = w.outcome (.defineByPos (i + 1)) ∧
    w₂.outcome = w.outcome) (E := fun _ _ => False) ?_ ?_ (fun _ _ hFalse => hFalse.elim)
  · simp only [ociDefineByPos, wp_bind, wp_pass, wp_answer, wp_ite, wp_modifyStmtState, wp_pure]
    split
    · exact ⟨by rw [hOutcome], hOutcome⟩
    · exact ⟨by rw [hOutcome], hOutcome⟩
  · rintro result w₂ ⟨hResult, hOutcome₂⟩
    rw [wp_bind, wp_ite]
    split
    · rename_i hCharset
      rw [hText, hCfg] at hCharset
      rw [wp_andThen]
      split
      · rename_i hSuccess
        rw [hResult] at hSuccess
        simp only [ociAttrSet, wp_bind, wp_pass, wp_answer, wp_ite, hOutcome₂]
        split
        · rename_i hFailed
          exact wp_throwOnError fun _ _ hDefinable => hFailed (hDefinable.2 hCharset)
        · rename_i hSet
          exact ⟨hSuccess, fun _ => Classical.not_not.mp hSet⟩
      · rename_i hFailed
        rw [hResult] at hFailed
        exact wp_throwOnError fun _ _ hDefinable => hFailed hDefinable.1
    · rename_i hPlain
      rw [hText, hCfg] at hPlain
      rw [wp_pure, wp_ite, hResult]
      split
      · rename_i hFailed
        exact wp_throwOnError fun _ _ hDefinable => hFailed hDefinable.1
      · rename_i hSuccess
        exact ⟨Classical.not_not.mp hSuccess, fun hCharset => absurd hCharset hPlain⟩

/-- `define` goes through where all columns can be defined. -/
theorem define_iff (hB : Building w w₁ r (some h) F ids)
    (hLength : ids.length = (w.oci.stmt h).query.desc.length) :
    wp (ResultSet.define r) (fun _ _ => ∀ i < (w.oci.stmt h).query.desc.length, w.Definable h i)
      (fun _ _ => ¬ ∀ i < (w.oci.stmt h).query.desc.length, w.Definable h i) w₁ := by
  rw [← hLength, ResultSet.define, wp_bind, wp_get, wp_bind, hB.rset.columns]
  refine wp_mono (wp_forM (E := fun _ _ => ¬ ∀ i < ids.length, w.Definable h i)
    (fun done w₂ => Building w w₂ r (some h) F ids ∧ ∀ i < done.length, w.Definable h i)
    (ids.zipIdx 1) ?_ ⟨hB, fun _ hi => absurd hi (Nat.not_lt_zero _)⟩) ?_ (fun _ _ hE => hE)
  · rintro done e rest w₂ hSplit ⟨hB₂, hGood⟩
    obtain ⟨hLt, rfl⟩ := zipIdx_split hSplit
    refine wp_mono (wp_and (wp_defineColumn hB₂ (List.getElem_mem hLt) (done.length + 1))
      (defineColumn_iff hB₂ hLt)) ?_ (fun _ _ hBad hAll => hBad.2 (hAll _ hLt))
    rintro _ w₃ ⟨⟨hB₃, -⟩, hTurn⟩
    refine ⟨hB₃, fun i hi => ?_⟩
    rw [List.length_append, List.length_singleton] at hi
    rcases Nat.lt_succ_iff_lt_or_eq.mp hi with hi | rfl
    · exact hGood i hi
    · exact hTurn
  · rintro _ w₂ ⟨-, hGood⟩
    rw [wp_modifyRs]
    rw [List.length_zipIdx] at hGood
    exact hGood

-- ---------------------------------------------------------------------------
-- The constructor
-- ---------------------------------------------------------------------------

/-- **The constructor of a result set** returns exactly when OCI answers all
its calls and every type is supported. -/
theorem newResultSet_constructs (fetchSize : Nat) :
    wp (ResultSet.new (some h) fetchSize) (fun _ _ => w.Constructs h)
      (fun _ _ => ¬ w.Constructs h) w := by
  rw [ResultSet.new, wp_bind, wp_acquire, wp_bind, wp_modifyRs, wp_bind, constructing, wp_tryCatch,
    ResultSet.attach, wp_bind, wp_modifyRs]
  simp only [Function.update_self, Function.update_idem]
  have hStart := building_start w (some h) (fetchSize % 2 ^ 16) {
    m_rsHandle := some h
    m_fetchCount := fetchSize % 2 ^ 16 } ⟨rfl, rfl, rfl, rfl, rfl, rfl, rfl⟩ rfl
  -- the handler always throws again
  have hThrows : ∀ e w₁ (Q : Unit → World → Prop), ¬ w.Constructs h →
      wp (do ResultSet.cleanUp w.fresh; release ⟨.resultSet, w.fresh⟩ true; throw e : M Unit)
        Q (fun _ _ => ¬ w.Constructs h) w₁ := by
    intro e w₁ Q hNot
    rw [wp_bind]
    refine wp_mono (wp_trivial _ _) (fun _ w₂ _ => ?_) (fun _ _ _ => hNot)
    rw [wp_bind, wp_release, wp_throw]
    exact hNot
  rw [wp_bind]
  refine wp_mono (wp_and (wp_describe hStart) (describe_iff hStart)) ?_ ?_
  · rintro _ w₁ ⟨⟨ids, hB, hLength⟩, hDescribed⟩
    refine wp_mono (define_iff hB (hLength h rfl)) (fun _ w₂ hDefined => ?_)
      (fun e w₂ hNot => ?_)
    · exact ⟨hDescribed, hDefined⟩
    · exact hThrows e w₂ _ fun hAll => hNot hAll.2
  · rintro e w₁ ⟨-, hNot⟩
    exact hThrows e w₁ _ fun hAll => hNot hAll.1

end Epol
