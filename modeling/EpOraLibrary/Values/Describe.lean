import EpOraLibrary.Ownership.Calls
import EpOraLibrary.Ownership.Start
import EpOraLibrary.Values.Layout

/-!
# EpOraLibrary — what `describe` reads

The name of a column is a pointer into the memory of its descriptor, together
with a length. `describe` frees the descriptor first and lets the constructor
of `Column` read the pointer afterwards, up to the next NUL; the length is not
looked at.

* `NamesLive` — every name was read while its descriptor was there.
* `namesLive_describe` — which turns of `describe` read in time.
* `describe_mirrors_iff` — `describe` mirrors the description of the server
  exactly when no descriptor could be freed and a NUL follows every name.
-/

namespace Epol

open Ledger Prog

-- ---------------------------------------------------------------------------
-- Reading names
-- ---------------------------------------------------------------------------

/-- The descriptor acquired last, which is that of the turn in progress. -/
def lastDescriptor : Trace Res → Option Nat
  | [] => none
  | .acquire ⟨.descriptor, d⟩ _ :: _ => some d
  | _ :: t => lastDescriptor t

/-- The constructor of a `Column` reads the name through the pointer it is
given, which points into the descriptor of the turn: none of the columns from
number `since` on was constructed after that descriptor was freed. -/
def NamesLive (since : Nat) : Trace Res → Prop
  | [] => True
  | .acquire ⟨.column, c⟩ _ :: t =>
    (since ≤ c → ∀ d, lastDescriptor t = some d → ¬ Released t ⟨.descriptor, d⟩) ∧
      NamesLive since t
  | _ :: t => NamesLive since t

section Traces

variable {since c d : Nat} {done : Bool} {parent : Option Res} {t : Trace Res}

theorem lastDescriptor_uses (us : List Res) :
    lastDescriptor (us.map .use ++ t) = lastDescriptor t := by
  induction us with
  | nil => rfl
  | cons x us ih => exact ih

theorem namesLive_uses (us : List Res) :
    NamesLive since (us.map .use ++ t) ↔ NamesLive since t := by
  induction us with
  | nil => exact Iff.rfl
  | cons x us ih => exact ih

/-- The trace of a descriptor from its acquisition to the attempt to free it. -/
def paramTrace (t : Trace Res) (d : Nat) (parent : Option Res) (us vs : List Res)
    (done : Bool) : Trace Res :=
  .release ⟨.descriptor, d⟩ done ::
    (us.map .use ++ .acquire ⟨.descriptor, d⟩ parent :: (vs.map .use ++ t))

theorem namesLive_column (q : Option Res) :
    NamesLive since (.acquire ⟨.column, c⟩ q :: t) ↔
      (since ≤ c → ∀ d, lastDescriptor t = some d → ¬ Released t ⟨.descriptor, d⟩) ∧
        NamesLive since t := Iff.rfl

/-- In a turn the name is read in time exactly when the free failed. -/
theorem namesLive_turn (hSince : since ≤ c) (hNew : ¬ Released t ⟨.descriptor, d⟩)
    (us vs : List Res) :
    NamesLive since (.acquire ⟨.column, c⟩ none :: paramTrace t d parent us vs done) ↔
      NamesLive since t ∧ done = false := by
  have hLast : lastDescriptor (paramTrace t d parent us vs done) = some d :=
    lastDescriptor_uses us
  have hRest : NamesLive since (paramTrace t d parent us vs done) ↔ NamesLive since t :=
    (namesLive_uses us).trans (namesLive_uses vs)
  have hFreed : Released (paramTrace t d parent us vs done) ⟨.descriptor, d⟩ ↔ done = true := by
    rw [paramTrace, released_release, released_uses, released_acquire, released_uses]
    simp [hNew]
  rw [namesLive_column, hLast, hRest]
  constructor
  · rintro ⟨hRead, hLive⟩
    have hNot := hRead hSince d rfl
    rw [hFreed] at hNot
    exact ⟨hLive, Bool.eq_false_iff.mpr hNot⟩
  · rintro ⟨hLive, rfl⟩
    refine ⟨fun _ d' hd' => ?_, hLive⟩
    obtain rfl := Option.some.inj hd'
    rw [hFreed]
    exact Bool.false_ne_true

end Traces

-- ---------------------------------------------------------------------------
-- One turn
-- ---------------------------------------------------------------------------

/-- All that happened is that handles were passed. -/
def Uses (w w' : World) : Prop := ∃ us : List Res, w' = { w with trace := us.map .use ++ w.trace }

theorem frame_uses : Frame Uses where
  refl w := ⟨[], rfl⟩
  trans := by
    rintro w w' w'' ⟨us, rfl⟩ ⟨vs, rfl⟩
    refine ⟨vs ++ us, ?_⟩
    rw [List.map_append, List.append_assoc]

theorem uses_passAnswer (rs : List Res) (call : OciCall) :
    Respects Uses (do pass rs; answer call) :=
  fun _ => ⟨rs, rfl⟩

theorem uses_readAttrs (result : OciResult) (param error : Option Nat) (pos : Nat) :
    Respects Uses (ResultSet.readAttrs result param error pos) :=
  respects_bind frame_uses (respects_andThen frame_uses _ (uses_passAnswer _ _)) fun _ =>
    respects_bind frame_uses (respects_andThen frame_uses _ (uses_passAnswer _ _)) fun _ =>
      respects_andThen frame_uses _ (uses_passAnswer _ _)

theorem uses_columnsCount (r : Nat) : Respects Uses (ResultSet.columnsCount r) := by
  refine respects_get_bind fun w => respects_bind frame_uses ?_
    (fun _ => respects_ite (respects_pure frame_uses _) ?_) w
  · refine respects_bind frame_uses (uses_passAnswer _ _) fun _ => respects_get_bind fun w₁ => ?_
    cases (w.rsets r).m_rsHandle <;> exact frame_uses.refl w₁
  · exact fun w₁ => wp_throwOnError fun rs _ => ⟨rs, rfl⟩

/-- What a turn that succeeds leaves of its descriptor. -/
theorem wp_readParam_trace (handle error : Option Nat) (i : Nat) (w : World) :
    wp (ResultSet.readParam handle error i)
      (fun out w' => out.1 = .success → ∃ parent us vs, w' = { w with
        fresh := w.fresh + 1
        trace := paramTrace w.trace w.fresh parent us vs
          (w.outcome (.descriptorFree (i + 1)) = .success) })
      (fun _ _ => True) w := by
  rw [ResultSet.readParam, wp_bind]
  simp only [ociParamGet, wp_bind, wp_pass, wp_answer, wp_ite, wp_acquire, wp_pure]
  split
  · refine wp_mono (uses_readAttrs _ _ _ _ _) (fun result w' hUses => ?_) (fun _ _ _ => trivial)
    obtain ⟨us, rfl⟩ := hUses
    simp only [ociDescriptorFree, wp_bind, wp_pass, wp_answer, wp_release, wp_pure]
    intro _
    exact ⟨handle.map (Res.mk .stmt), ⟨.descriptor, w.fresh⟩ :: us,
      ptr .stmt handle ++ ptr .error error, rfl⟩
  · rename_i hFailed
    have hNot : w.outcome (.paramGet (i + 1)) ≠ .success := fun hSuccess => by
      rw [hSuccess] at hFailed
      exact hFailed rfl
    exact wp_mono (readAttrs_failed hNot) (fun _ _ hResult hSuccess => absurd hSuccess hResult)
      (fun _ _ _ => trivial)

/-- A turn that constructs a column, by its trace. -/
theorem wp_describeColumn_trace (r i : Nat) (w : World) :
    wp (ResultSet.describeColumn r i)
      (fun _ w' => ∃ parent us vs, w'.trace = .acquire ⟨.column, w.fresh + 1⟩ none ::
        paramTrace w.trace w.fresh parent us vs
          (w.outcome (.descriptorFree (i + 1)) = .success))
      (fun _ _ => True) w := by
  rw [ResultSet.describeColumn, wp_bind, wp_get, wp_bind]
  refine wp_mono (wp_readParam_trace _ _ _ w) ?_ (fun _ _ _ => trivial)
  rintro ⟨result, freed⟩ w₁ hTrace
  simp only [wp_bind, wp_ite]
  split
  · exact wp_throwOnError fun _ _ => trivial
  · rename_i hSuccess
    obtain ⟨parent, us, vs, rfl⟩ := hTrace (Classical.not_not.mp hSuccess)
    refine wp_newColumn (fun as hType => ?_) (fun _ _ _ => trivial)
    rw [wp_modifyRs]
    exact ⟨parent, us, vs, rfl⟩

-- ---------------------------------------------------------------------------
-- All turns
-- ---------------------------------------------------------------------------

/-- The first `n` turns read the name in time: no descriptor was freed. -/
def World.KeepsDescriptors (w : World) (n : Nat) : Prop :=
  ∀ i < n, w.outcome (.descriptorFree (i + 1)) ≠ .success

theorem keepsDescriptors_succ {w : World} {n : Nat} : w.KeepsDescriptors (n + 1) ↔
    w.KeepsDescriptors n ∧ w.outcome (.descriptorFree (n + 1)) ≠ .success := by
  unfold World.KeepsDescriptors
  constructor
  · intro h
    exact ⟨fun i hi => h i (by omega), h n (by omega)⟩
  · rintro ⟨hOld, hLast⟩ i hi
    rcases Nat.lt_or_ge i n with hLt | hGe
    · exact hOld i hLt
    · obtain rfl : i = n := by omega
      exact hLast

section Describe

variable {w w₁ : World} {r F : Nat} {handle : Option Nat}

/-- The names read since `w` were read in time as long as no free succeeded. -/
theorem namesLive_describe (hB : Building w w₁ r handle F []) (hMinted : Minted w.fresh w.trace)
    (hr : w.fresh ≤ r) (hStart : NamesLive w.fresh w₁.trace) :
    wp (ResultSet.describe r)
      (fun _ w₂ => NamesLive w.fresh w₂.trace ↔
        w.KeepsDescriptors (w₂.rsets r).m_columns.length)
      (fun _ _ => True) w₁ := by
  rw [ResultSet.describe, wp_bind]
  refine wp_mono (wp_and (uses_columnsCount r w₁) (wp_columnsCount hB.rset.handle)) ?_
    (fun _ _ _ => trivial)
  rintro count w₂ ⟨hUses, hQuiet, -⟩
  have hB₂ := hB.quiet hQuiet
  have hStart₂ : NamesLive w.fresh w₂.trace := by
    obtain ⟨us, rfl⟩ := hUses
    exact (namesLive_uses us).mpr hStart
  rw [wp_bind]
  refine wp_mono (wp_forM (fun done w₃ => ∃ ids : List Nat, ids.length = done.length ∧
    Building w w₃ r handle F ids ∧
      (NamesLive w.fresh w₃.trace ↔ w.KeepsDescriptors done.length)) (List.range count) ?_
    ⟨[], rfl, hB₂, fun _ i hi => absurd hi (Nat.not_lt_zero i), fun _ => hStart₂⟩) ?_
    (fun _ _ hE => hE)
  · rintro done i rest w₃ hSplit ⟨ids, hLength, hB₃, hLive⟩
    have hi := (range_split hSplit).1
    refine wp_mono (wp_and (wp_describeColumn hB₃ (hi.trans hLength.symm))
      (wp_describeColumn_trace r i w₃)) ?_ (fun _ _ _ => trivial)
    rintro _ w₄ ⟨⟨id, hB₄⟩, parent, us, vs, hTrace⟩
    refine ⟨ids ++ [id], by simp [hLength], hB₄, ?_⟩
    -- the numbers handed out in the turn are new
    have hFresh : w.fresh ≤ w₃.fresh := Nat.le_trans hr (Nat.le_of_lt hB₃.fresh)
    have hNew : ¬ Released w₃.trace ⟨.descriptor, w₃.fresh⟩ := fun hReleased =>
      Nat.lt_irrefl _ ((hB₃.minted hMinted).released hReleased)
    rw [hTrace, namesLive_turn (by omega) hNew, hLive, List.length_append, List.length_singleton,
      keepsDescriptors_succ, decide_eq_false_iff_not, hB₃.apart.outcome, hi]
  · rintro _ w₃ ⟨ids, hLength, hB₃, hLive⟩
    rw [wp_modifyRs]
    show NamesLive w.fresh w₃.trace ↔
      w.KeepsDescriptors (Function.update w₃.rsets r _ r).m_columns.length
    rw [Function.update_self, hLive, ← hLength]
    show _ ↔ w.KeepsDescriptors (w₃.rsets r).m_columns.length
    rw [hB₃.rset.columns]

end Describe

-- ---------------------------------------------------------------------------
-- The mirror
-- ---------------------------------------------------------------------------

/-- The world in which the constructor of a result set enters `describe`. -/
def World.entering (w : World) (handle : Option Nat) (fetchSize : Nat) : World :=
  { w with
    fresh := w.fresh + 1
    trace := .acquire ⟨.resultSet, w.fresh⟩ none :: w.trace
    rsets := Function.update w.rsets w.fresh {
      m_rsHandle := handle
      m_fetchCount := fetchSize % 2 ^ 16 } }

/-- That is where it is entered. -/
theorem new_entering (w : World) (handle : Option Nat) (fetchSize : Nat) :
    ResultSet.new handle fetchSize w =
      (do
        constructing ⟨.resultSet, w.fresh⟩
          (do ResultSet.describe w.fresh; ResultSet.define w.fresh) (ResultSet.cleanUp w.fresh)
        return w.fresh) (w.entering handle fetchSize) := by
  unfold ResultSet.new ResultSet.attach World.entering constructing
  simp only [acquire, modifyRs, bind, EStateM.bind, modify, modifyGet, MonadStateOf.modifyGet,
    EStateM.modifyGet, tryCatch, tryCatchThe, MonadExceptOf.tryCatch, EStateM.tryCatch, get,
    getThe, MonadStateOf.get, EStateM.get, set, EStateM.set, pure, EStateM.pure,
    Function.update_self, Function.update_idem]

/-- The columns of the result set `r` mirror the description `desc`: one for
every position, with its type, its size and its name, and the names were read
while the descriptors were there. -/
structure World.Mirrors (w : World) (r since : Nat) (desc : List ColumnDesc) : Prop where
  length : (w.rsets r).m_columns.length = desc.length
  sized  : ∀ i c, (w.rsets r).m_columns[i]? = some c →
    Column.typeOf w.cfg.tcharSize ((desc.getD i default).ociType % 2 ^ 16)
      ((desc.getD i default).size % 2 ^ 16) =
        some ((w.cols c).m_ociType, (w.cols c).m_colType, (w.cols c).m_size)
  named  : ∀ i c, (w.rsets r).m_columns[i]? = some c →
    (w.cols c).m_colName = (desc.getD i default).name
  live   : NamesLive since w.trace

/-- Columns of an older number are not looked at. -/
theorem namesLive_of_minted {t : Trace Res} {fresh : Nat}
    (hOld : ∀ c q, .acquire ⟨.column, c⟩ q ∈ t → c < fresh) : NamesLive fresh t := by
  induction t with
  | nil => trivial
  | cons e t ih =>
    have hRest := ih fun c q hMem => hOld c q (List.mem_cons_of_mem _ hMem)
    rcases e with ⟨⟨kind, c⟩, q⟩ | x | ⟨x, done⟩
    · cases kind with
      | column =>
        have hLt := hOld c q (List.mem_cons_self ..)
        exact ⟨fun hSince => absurd hSince (Nat.not_le_of_lt hLt), hRest⟩
      | _ => exact hRest
    · exact hRest
    · exact hRest

/-- **`describe`** returns with a mirror of the description exactly when the
memory of no descriptor was freed and every name ends where its length says. -/
theorem describe_mirrors_iff {w w' : World} {h fetchSize : Nat}
    (hMinted : Minted w.fresh w.trace)
    (hRun : ResultSet.describe w.fresh (w.entering (some h) fetchSize) = .ok ⟨⟩ w') :
    w'.Mirrors w.fresh w.fresh (w.oci.stmt h).query.desc ↔
      ∀ i < (w.oci.stmt h).query.desc.length,
        w.outcome (.descriptorFree (i + 1)) ≠ .success ∧
          ((w.oci.stmt h).query.desc.getD i default).nameTail = [] := by
  have hStart : Building w (w.entering (some h) fetchSize) w.fresh (some h)
      (fetchSize % 2 ^ 16) [] :=
    building_start w (some h) (fetchSize % 2 ^ 16) _ ⟨rfl, rfl, rfl, rfl, rfl, rfl, rfl⟩ rfl
  have hLive : NamesLive w.fresh (w.entering (some h) fetchSize).trace := by
    refine namesLive_of_minted fun c q hMem => ?_
    rcases List.mem_cons.mp hMem with hNew | hOld
    · cases hNew
    · exact hMinted.acquired hOld
  obtain ⟨⟨ids, hB, hLength⟩, hNames⟩ :=
    of_wp_ok (wp_and (wp_describe hStart) (namesLive_describe hStart hMinted (Nat.le_refl _) hLive))
      hRun
  have hCount := hLength h rfl
  rw [hB.rset.columns, hCount] at hNames
  constructor
  · intro hMirrors i hi
    have hKeeps := hNames.mp hMirrors.live i hi
    refine ⟨hKeeps, ?_⟩
    -- the descriptor is still there, so the name is read up to the next NUL
    have hName := hMirrors.named i ids[i] (by
      rw [hB.rset.columns, List.getElem?_eq_getElem (by omega)])
    rw [hB.named h rfl i (by omega), ColumnDesc.nameRead, if_neg hKeeps] at hName
    exact List.append_right_eq_self.mp hName
  · intro hDesc
    refine ⟨by rw [hB.rset.columns, hCount], fun i c hi => ?_, fun i c hi => ?_,
      hNames.mpr fun i hi => (hDesc i hi).1⟩
    · rw [hB.rset.columns] at hi
      obtain ⟨hLt, rfl⟩ := List.getElem?_eq_some_iff.mp hi
      obtain ⟨freed, as, hAs, hCol⟩ := hB.isFor h rfl i hLt
      rw [hB.apart.cfg, hAs, hCol]
      rfl
    · rw [hB.rset.columns] at hi
      obtain ⟨hLt, rfl⟩ := List.getElem?_eq_some_iff.mp hi
      obtain ⟨hKeeps, hTail⟩ := hDesc i (by omega)
      rw [hB.named h rfl i hLt, ColumnDesc.nameRead, if_neg hKeeps, hTail, List.append_nil]

/-- In the world of an execution every number was handed out once. -/
theorem minted_executedOn (q : Query) : Minted (executedOn q).fresh (executedOn q).trace := by
  have hStart := (noStatements_start (.serving q)).minted
  have hPrepared : Minted (preparedOn q).fresh (preparedOn q).trace :=
    wp_exec.mp (wp_mono (wp_newStatement [] (cursorsBelow_of_none (fun _ => rfl) _))
      (fun _ _ ⟨_, _, hP⟩ => hP.gains.conserves.minted hStart) fun _ _ hC => hC.minted hStart)
  exact wp_exec.mp (wp_mono (wp_executePrepared 0)
    (fun _ _ hEx => (hEx.1.conserves 0).minted hPrepared)
    fun _ _ hEx => (hEx.conserves 0).minted hPrepared)

/-- The same execution when OCI refuses to free the descriptor. -/
def refusing : World := (executedOn threeRows).answering (failing (· = .descriptorFree 1))

/-- What `describe` leaves there. -/
def describedRefusing : World := exec (ResultSet.describe 2) (refusing.entering (some 1) FETCH_SIZE)

/-- The name of the column is read in time. -/
theorem describe_mirrors_refused : describedRefusing.Mirrors 2 2 threeRows.desc := by
  have hFresh : refusing.fresh = 2 := by decide +kernel
  have hQuery : (refusing.oci.stmt 1).query = threeRows := by decide +kernel
  have hMinted : Minted refusing.fresh refusing.trace := minted_executedOn threeRows
  have hRun : ResultSet.describe refusing.fresh (refusing.entering (some 1) FETCH_SIZE) =
      .ok ⟨⟩ describedRefusing := by
    rw [hFresh]
    exact eq_ok_of_result (by decide +kernel)
  have hMirrors := (describe_mirrors_iff hMinted hRun).mpr
  rw [hQuery, hFresh] at hMirrors
  exact hMirrors (by decide +kernel)

/-- What `describe` leaves when the free succeeds. -/
def describedFreeing : World :=
  exec (ResultSet.describe 2) ((executedOn threeRows).entering (some 1) FETCH_SIZE)

/-- The name is read from memory that was freed, and comes out empty. -/
theorem freed_name_read : result? (ResultSet.describe 2)
      ((executedOn threeRows).entering (some 1) FETCH_SIZE) = some ⟨⟩ ∧
    ¬ describedFreeing.Mirrors 2 2 threeRows.desc ∧
    (describedFreeing.cols 4).m_colName = [] := by
  have hName : (describedFreeing.cols 4).m_colName = [] := by decide +kernel
  refine ⟨by decide +kernel, fun hMirrors => ?_, hName⟩
  have hNamed := hMirrors.named 0 4 (by decide +kernel)
  rw [hName] at hNamed
  exact absurd hNamed (by decide +kernel)

end Epol
