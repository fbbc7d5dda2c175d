import EpOraLibrary.Ownership.Conserves

/-!
# EpOraLibrary — how a parameter is made

* `Attaching` — what holds at any point of the constructor of a `Parameter`:
  the new object owns what was acquired, and its registration with OCI either
  was made or was not.
* `wp_newParameter` — the constructor returns exactly when the bind completes
  (`World.BindCompletes`); when it throws, all is released again, but what was
  registered (`World.BindRegisters`) stays registered.
-/

namespace Epol

open Ledger Prog

variable {w w₁ w₂ : World} {s p : Nat} {name : TString}

-- ---------------------------------------------------------------------------
-- When a bind registers, and when it completes
-- ---------------------------------------------------------------------------

/-- `name` without a leading colon and the array prefix. -/
def Parameter.bareName (paramName : TString) : TString :=
  let name := if firstChar paramName = ':'.toNat then paramName.tail else paramName
  if firstChar name = PP_ARRAY then name.tail else name

/-- The type the parameter is set up with, if its name and type allow one. -/
def World.bindType (w : World) (name : TString) (type : DataType) : Option DataType :=
  (Parameter.typeOf w.cfg.pointerSize type (firstChar (Parameter.bareName name))).map Prod.fst

/-- The bind gets as far as `OCIBindByName`, which does its work. -/
def World.BindRegisters (w : World) (name : TString) (type : DataType) : Prop :=
  ∃ t, w.bindType name type = some t ∧
    (t = .resultSet → w.outcome (.handleAlloc .stmt) = .success) ∧
    (w.outcome .bindByName).done = true

/-- All calls of the bind succeed. -/
def World.BindCompletes (w : World) (name : TString) (type : DataType) : Prop :=
  w.BindRegisters name type ∧ w.outcome .bindByName = .success ∧
    (w.cfg.unicode = true → w.outcome (.attrSet .charsetId 0) = .success)

/-- The memory of a parameter that a bind registers. -/
def Registration.of (p : Nat) (type : DataType) : Registration :=
  if type = .resultSet then { valuep := .rsHandle p, indp := none, alenp := none }
  else { valuep := .buffer p, indp := some (.indicator p), alenp := some (.dataLen p) }

/-- The registrations of a handle after one more, if it was made. -/
def registered (cfg : Setting) (done : Bool) (name : TString) (reg : Registration)
    (binds : List (TString × Registration)) : List (TString × Registration) :=
  if done then
    (name, reg) :: binds.filter fun e => cfg.placeholder e.1 ≠ cfg.placeholder name
  else binds

/-- A parameter under its name and of its type; a cursor has a handle, a text
its buffer. -/
structure Parameter.Typed (param : Parameter) (name : TString) (t : DataType) : Prop where
  name   : param.m_paramName = name
  type   : param.m_paramType = t
  handle : t = .resultSet → ∃ h, param.m_rsHandle = some h
  buffer : t = .text →
    param.m_size = MAX_OUTPUT_TEXT_BYTES ∧ ∃ buf, param.m_fetchBuffer = some buf

/-- A parameter as `setupType` leaves it: of the type found, without anything
of its own. -/
structure Parameter.SetUp (param : Parameter) (name : TString) (t : Option DataType) :
    Prop where
  name      : param.m_paramName = name
  type      : t = some param.m_paramType
  textSize  : param.m_paramType = .text → param.m_size = MAX_OUTPUT_TEXT_BYTES
  resultSet : param.m_resultSet = none
  rsHandle  : param.m_rsHandle = none

theorem typeOf_textSize {pointerSize : Nat} {type : DataType} {pre : TChar}
    {as : DataType × Nat × Nat} (hAs : Parameter.typeOf pointerSize type pre = some as)
    (hText : as.1 = .text) : as.2.2 = MAX_OUTPUT_TEXT_BYTES := by
  unfold Parameter.typeOf at hAs
  split at hAs
  · cases hAs
    cases hText
  split at hAs
  · cases hAs
    cases hText
  split at hAs
  · cases hAs
    rfl
  split at hAs
  · cases hAs
    cases hText
  · cases hAs

/-- The parameter `p` of the statement `s` is being made since `w`. -/
structure Attaching (w w₁ : World) (s p : Nat) (param : Parameter)
    (binds : List (TString × Registration) → List (TString × Registration)) : Prop where
  gains    : Gains w w₁ ⟨.parameter, p⟩
  cfg      : w₁.cfg = w.cfg
  outcome  : w₁.outcome = w.outcome
  stmts    : w₁.stmts = w.stmts
  param    : w₁.params p = param
  params   : ∀ p', p' ≠ p → w₁.params p' = w.params p'
  binds    : ∀ h, (w.stmts s).m_stmtHandle = some h → h < w.fresh →
    (w₁.oci.stmt h).binds = binds (w.oci.stmt h).binds
  released : ∀ x, Released w₁.trace x ↔ Released w.trace x

variable {param : Parameter} {binds : List (TString × Registration) → List (TString × Registration)}

theorem Attaching.uses (h : Attaching w w₁ s p param binds) (rs : List Res) :
    Attaching w { w₁ with trace := rs.map .use ++ w₁.trace } s p param binds :=
  ⟨h.gains.conserve ((quiet_uses w₁ rs).conserves _), h.cfg, h.outcome, h.stmts, h.param, h.params,
    h.binds, fun x => (released_uses rs).trans (h.released x)⟩

/-- A change of the new parameter that leaves what it owns. -/
theorem Attaching.modifyParam (h : Attaching w w₁ s p param binds) (param' : Parameter)
    (hResultSet : param'.m_resultSet = param.m_resultSet)
    (hRsHandle : param'.m_rsHandle = param.m_rsHandle) :
    Attaching w { w₁ with params := Function.update w₁.params p param' } s p param' binds where
  gains := h.gains.conserve (conserves_modifyParam param'
    (fun _ => ⟨by rw [hResultSet, h.param], by rw [hRsHandle, h.param]⟩)
    fun r hr => by rw [h.param, ← hResultSet, hr])
  cfg := h.cfg
  outcome := h.outcome
  stmts := h.stmts
  param := Function.update_self ..
  params p' hp' := (Function.update_of_ne hp' ..).trans (h.params p' hp')
  binds := h.binds
  released := h.released

section Rules

variable {E : OraError → World → Prop}

/-- The registration itself. -/
theorem wp_ociBindByName (h : Attaching w w₁ s p param id) (error : Option Nat)
    (reg : Registration) :
    wp (ociBindByName (w.stmts s).m_stmtHandle error name reg)
      (fun result w' => result = w.outcome .bindByName ∧
        Attaching w w' s p param (registered w.cfg (w.outcome .bindByName).done name reg))
      E w₁ := by
  have hUses := h.uses (ptr .stmt (w.stmts s).m_stmtHandle ++ ptr .error error)
  rw [← h.outcome, ← h.cfg]
  simp only [ociBindByName, wp_bind, wp_pass, wp_answer, wp_ite, wp_get, wp_pure]
  by_cases hDone : (w₁.outcome .bindByName).done = true
  · rw [if_pos hDone, hDone]
    cases hHandle : (w.stmts s).m_stmtHandle with
    | none =>
      rw [hHandle] at hUses
      exact ⟨rfl, { hUses with binds := fun h' hh => by rw [hHandle] at hh; cases hh }⟩
    | some hd =>
      rw [hHandle] at hUses
      refine ⟨rfl, { hUses with
        outcome := h.outcome
        gains := hUses.gains.conserve (conserves_oci _ _ _)
        binds := fun h' hh hOld => ?_ }⟩
      rw [hHandle] at hh
      obtain rfl := Option.some.inj hh
      simp only [Function.update_self, registered, if_true]
      rw [h.binds hd hHandle hOld]
      rfl
  · rw [if_neg hDone]
    rw [Bool.not_eq_true] at hDone
    exact ⟨trivial, hDone ▸ hUses⟩

/-- The registration and the character set: `OCI_SUCCESS` when both succeed. -/
theorem wp_bindName (h : Attaching w w₁ s p param id) (error : Option Nat) (reg : Registration) :
    wp (do
        let result ← ociBindByName (w.stmts s).m_stmtHandle error name reg
        Parameter.setCharset result)
      (fun result w' => (result = .success ↔ w.outcome .bindByName = .success ∧
          (w.cfg.unicode = true → w.outcome (.attrSet .charsetId 0) = .success)) ∧
        Attaching w w' s p param (registered w.cfg (w.outcome .bindByName).done name reg))
      E w₁ := by
  rw [wp_bind]
  refine wp_mono (wp_ociBindByName h error reg) (fun result w₂ ⟨hResult, h₂⟩ => ?_)
    (fun _ _ hE => hE)
  subst hResult
  rw [Parameter.setCharset, wp_bind, wp_get, wp_ite]
  split
  · rename_i hUnicode
    rw [h₂.cfg] at hUnicode
    rw [wp_andThen]
    split
    · rename_i hSuccess
      refine ⟨?_, h₂.uses _⟩
      show w₂.outcome _ = _ ↔ _
      simp [hSuccess, hUnicode, h₂.outcome]
    · rename_i hFailed
      exact ⟨by simp [hFailed], h₂⟩
  · rename_i hUnicode
    rw [h₂.cfg] at hUnicode
    exact ⟨by simp [hUnicode], h₂⟩

/-- The end of `setupType`: the parameter takes over its type, or the prefix is
refused. -/
theorem wp_takeType (h : Attaching w w₁ s p param id)
    (hName : param.m_paramName = name)
    (hOwns : param.m_resultSet = none ∧ param.m_rsHandle = none) (type : DataType) :
    wp (match Parameter.typeOf w.cfg.pointerSize type (firstChar (Parameter.bareName name)) with
      | some (paramType, ociType, size) =>
        modifyParam p fun param => { param with
          m_paramType := paramType
          m_ociType := ociType
          m_size := size }
      | none => throw (.oralib .badParamPrefix (some name)))
      (fun _ w' => ∃ param', param'.SetUp name (w.bindType name type) ∧
        Attaching w w' s p param' id)
      (fun _ w' => w.bindType name type = none ∧ ∃ param', Attaching w w' s p param' id) w₁ := by
  cases hTypeOf : Parameter.typeOf w.cfg.pointerSize type
      (firstChar (Parameter.bareName name)) with
  | none => exact ⟨by rw [World.bindType, hTypeOf]; rfl, _, h⟩
  | some as =>
    rw [wp_modifyParam, h.param]
    exact ⟨{ param with m_paramType := as.1, m_ociType := as.2.1, m_size := as.2.2 },
      ⟨hName, by rw [World.bindType, hTypeOf]; rfl, typeOf_textSize hTypeOf, hOwns.1, hOwns.2⟩,
      h.modifyParam _ rfl rfl⟩

/-- `setupType` finds the type, or throws. -/
theorem wp_setupType (h : Attaching w w₁ s p param id) (hName : param.m_paramName = name)
    (hOwns : param.m_resultSet = none ∧ param.m_rsHandle = none) (type : DataType) :
    wp (Parameter.setupType p name type)
      (fun _ w' => ∃ param', param'.SetUp name (w.bindType name type) ∧
        Attaching w w' s p param' id)
      (fun _ w' => w.bindType name type = none ∧ ∃ param', Attaching w w' s p param' id) w₁ := by
  rw [Parameter.setupType, wp_bind, wp_get]
  dsimp only
  rw [wp_ite, h.cfg]
  by_cases hArray : firstChar (if firstChar name = ':'.toNat then name.tail else name) = PP_ARRAY
  · rw [if_pos hArray, wp_bind, wp_modifyParam, h.param]
    have hMarked := h.modifyParam { param with m_isArray := true } rfl rfl
    exact wp_takeType hMarked hName hOwns type
  · rw [if_neg hArray]
    exact wp_takeType h hName hOwns type

/-- The end of both kinds of bind: the statement is noted when all went well. -/
theorem wp_bindEnd {reg : List (TString × Registration) → List (TString × Registration)}
    {done : Prop} {result : OciResult} {error : Option Nat} (hResult : result = .success ↔ done)
    (h : Attaching w w₁ s p param reg) :
    wp (do
        if result ≠ .success then throwOnError result error (some name)
        modifyParam p fun param => { param with m_stmt := some s })
      (fun _ w' => done ∧ Attaching w w' s p { param with m_stmt := some s } reg)
      (fun _ w' => ¬ done ∧ Attaching w w' s p param reg) w₁ := by
  simp only [wp_ite, wp_bind]
  split
  · rename_i hFailed
    exact wp_throwOnError fun rs _ => ⟨fun hDone => hFailed (hResult.mpr hDone), h.uses rs⟩
  · rename_i hSuccess
    rw [wp_modifyParam, h.param]
    exact ⟨hResult.mp (Classical.not_not.mp hSuccess), h.modifyParam _ rfl rfl⟩

theorem bindType_ne_unknown {type t : DataType} (hType : w.bindType name type = some t) :
    t ≠ .unknown := by
  obtain ⟨as, hAs, rfl⟩ := Option.map_eq_some_iff.mp hType
  unfold Parameter.typeOf at hAs
  split at hAs
  · cases hAs
    exact fun hEq => nomatch hEq
  split at hAs
  · cases hAs
    exact fun hEq => nomatch hEq
  split at hAs
  · cases hAs
    exact fun hEq => nomatch hEq
  split at hAs
  · cases hAs
    exact fun hEq => nomatch hEq
  · cases hAs

/-- Where the type is set up, a bind registers when `OCIBindByName` does its
work, for a cursor after the allocation of its handle. -/
theorem bindRegisters_iff {type t : DataType} (hType : w.bindType name type = some t) :
    w.BindRegisters name type ↔ (t = .resultSet → w.outcome (.handleAlloc .stmt) = .success) ∧
      (w.outcome .bindByName).done = true := by
  constructor
  · rintro ⟨t', hType', h⟩
    obtain rfl := Option.some.inj (hType.symm.trans hType')
    exact h
  · exact fun h => ⟨t, hType, h⟩

theorem bindCompletes_iff {type t : DataType} (hType : w.bindType name type = some t)
    (hAlloc : t = .resultSet → w.outcome (.handleAlloc .stmt) = .success) :
    w.BindCompletes name type ↔ w.outcome .bindByName = .success ∧
      (w.cfg.unicode = true → w.outcome (.attrSet .charsetId 0) = .success) := by
  rw [World.BindCompletes, bindRegisters_iff hType]
  refine ⟨fun h => h.2, fun h => ⟨⟨hAlloc, ?_⟩, h⟩⟩
  rw [h.1]
  rfl

/-- The calls both kinds of bind end with. -/
theorem wp_bindTail (h : Attaching w w₁ s p param id) {type t : DataType}
    (hType : w.bindType name type = some t) (hTyped : param.Typed name t)
    (hAlloc : t = .resultSet → w.outcome (.handleAlloc .stmt) = .success) (error : Option Nat)
    (reg : Registration) :
    wp (do
        let result ← (do
          let result ← ociBindByName (w.stmts s).m_stmtHandle error name reg
          Parameter.setCharset result)
        if result ≠ .success then throwOnError result error (some name)
        modifyParam p fun param => { param with m_stmt := some s })
      (fun _ w' => w.BindCompletes name type ∧ ∃ param', param'.Typed name t ∧
        Attaching w w' s p param' (registered w.cfg true name reg))
      (fun _ w' => ¬ w.BindCompletes name type ∧ ∃ param' done,
        (done = true ↔ w.BindRegisters name type) ∧
        Attaching w w' s p param' (registered w.cfg done name reg)) w₁ := by
  rw [bindCompletes_iff hType hAlloc, wp_bind]
  refine wp_mono (wp_bindName h error reg) (fun result w₂ ⟨hResult, h₂⟩ => ?_) (fun _ _ hE => hE)
  refine wp_mono (wp_bindEnd hResult h₂) (fun _ w₃ ⟨hDone, h₃⟩ => ?_)
    (fun _ w₃ ⟨hFailed, h₃⟩ => ?_)
  · rw [hDone.1] at h₃
    exact ⟨hDone, { param with m_stmt := some s },
      ⟨hTyped.name, hTyped.type, hTyped.handle, hTyped.buffer⟩, h₃⟩
  · refine ⟨hFailed, param, _, ?_, h₃⟩
    rw [bindRegisters_iff hType]
    exact ⟨fun hd => ⟨hAlloc, hd⟩, fun hr => hr.2⟩

/-- `bind` of a number, a date or a text. -/
theorem wp_bindValue (h : Attaching w w₁ s p param id) {type : DataType}
    (hSetUp : param.SetUp name (w.bindType name type)) (hKind : param.m_paramType ≠ .resultSet) :
    wp (Parameter.bind p s)
      (fun _ w' => w.BindCompletes name type ∧ ∃ param', param'.Typed name param.m_paramType ∧
        Attaching w w' s p param' (registered w.cfg true name (.of p param.m_paramType)))
      (fun _ w' => ¬ w.BindCompletes name type ∧ ∃ param' done,
        (done = true ↔ w.BindRegisters name type) ∧
        Attaching w w' s p param' (registered w.cfg done name (.of p param.m_paramType))) w₁ := by
  have hReg : Registration.of p param.m_paramType =
      { valuep := .buffer p, indp := some (.indicator p), alenp := some (.dataLen p) } :=
    if_neg hKind
  obtain ⟨rfl, hType, hSize, -, -⟩ := hSetUp
  rw [Parameter.bind, wp_bind, wp_get, h.param, h.stmts]
  dsimp only
  cases hInitial : Parameter.initial w₁.cfg param.m_paramType with
  | none =>
    have hKnown := bindType_ne_unknown hType
    cases hk : param.m_paramType <;> simp [hk, Parameter.initial] at hInitial hKind hKnown
  | some buffer =>
    have hTail : ∀ w₂, Attaching w w₂ s p param id → _ := fun w₂ h₂ =>
      wp_bindTail (h₂.modifyParam { param with
          m_fetchBuffer := some buffer
          m_dataLen := param.m_size % 2 ^ 16 } rfl rfl) hType
        ⟨rfl, rfl, fun hk => absurd hk hKind, fun hText => ⟨hSize hText, buffer, rfl⟩⟩
        (fun hk => absurd hk hKind)
        w₁.conn.m_errorHandle (.of p param.m_paramType)
    simp only [hReg, bind_assoc] at hTail ⊢
    rw [wp_ite]
    split
    · rw [wp_bind, wp_pass, wp_bind, wp_modifyParam, h.param]
      exact hTail _ (h.uses _)
    · rw [wp_bind, wp_modifyParam, h.param]
      exact hTail _ h

/-- The handle of a cursor parameter. -/
theorem Attaching.allocated (h : Attaching w w₁ s p param id)
    (hOwns : param.m_resultSet = none ∧ param.m_rsHandle = none) (env : Option Nat) :
    Attaching w (setRsHandle p w₁.fresh (w₁.allocated env)) s p
      { param with m_rsHandle := some w₁.fresh } id := by
  have hOwned : w₁.owned ⟨.parameter, p⟩ = [⟨.parameter, p⟩] := by
    simp [World.owned, World.paramOwned, ptr, h.param, hOwns.1, hOwns.2]
  have hp : w.fresh ≤ p ∧ p < w₁.fresh :=
    h.gains.new _ (by rw [hOwned]; exact List.mem_singleton_self _)
  have hTrans := (h.gains.conserves.trans ((conserves_allocated w₁ env).mono
    h.gains.conserves.fresh)).trans (conserves_modifyParam (p := p)
      { w₁.params p with m_rsHandle := some w₁.fresh }
      (fun hlt => absurd hlt (Nat.not_lt_of_le hp.1)) fun _ hr => hr)
  rw [hOwned] at hTrans
  refine ⟨hTrans.made ?_ ?_ (by simp), h.cfg, h.outcome, h.stmts, ?_, fun p' hp' => ?_,
    fun hd hHandle hOld => ?_, fun x => ?_⟩
  · simp only [World.owned, World.paramOwned, Function.update_self, h.param, hOwns.1]
    exact List.Perm.swap ..
  · intro y hy
    simp only [List.cons_append, List.nil_append, List.append_nil, List.mem_cons,
      List.not_mem_nil, or_false] at hy
    rcases hy with rfl | rfl
    · exact ⟨hp.1, Nat.lt_succ_of_lt hp.2⟩
    · exact ⟨h.gains.conserves.fresh, Nat.lt_succ_self _⟩
  · simp [setRsHandle, World.allocated, h.param]
  · simpa [setRsHandle, World.allocated, hp'] using h.params p' hp'
  · have hne : hd ≠ w₁.fresh := Nat.ne_of_lt (Nat.lt_of_lt_of_le hOld h.gains.conserves.fresh)
    simpa [setRsHandle, World.allocated, hne] using h.binds hd hHandle hOld
  · simpa [setRsHandle, World.allocated] using h.released x

/-- `bindResultSet`. -/
theorem wp_bindResultSet (h : Attaching w w₁ s p param id) {type : DataType}
    (hSetUp : param.SetUp name (w.bindType name type)) (hKind : param.m_paramType = .resultSet) :
    wp (Parameter.bindResultSet p s)
      (fun _ w' => w.BindCompletes name type ∧ ∃ param', param'.Typed name .resultSet ∧
        Attaching w w' s p param' (registered w.cfg true name (.of p .resultSet)))
      (fun _ w' => ¬ w.BindCompletes name type ∧ ∃ param' done,
        (done = true ↔ w.BindRegisters name type) ∧
        Attaching w w' s p param' (registered w.cfg done name (.of p .resultSet))) w₁ := by
  obtain ⟨rfl, hType, -, hResultSet, hRsHandle⟩ := hSetUp
  rw [hKind] at hType
  rw [Parameter.bindResultSet, wp_bind, wp_get, h.param, h.stmts]
  dsimp only
  rw [wp_bind]
  refine wp_allocStmt (fun hFailed => ?_) (fun hSuccess => ?_)
  · have hNot : ¬ w.BindRegisters param.m_paramName type := fun hr =>
      hFailed (by rw [h.outcome]; exact ((bindRegisters_iff hType).mp hr).1 rfl)
    rw [wp_bind, wp_orThrow, if_neg hFailed]
    refine wp_throwOnEnv fun rs _ => ⟨fun hc => hNot hc.1, param, false, ?_, (h.uses _).uses rs⟩
    simp [hNot]
  · rw [h.outcome] at hSuccess
    have hTail := wp_bindTail (h.allocated ⟨hResultSet, hRsHandle⟩ w₁.conn.m_envHandle) hType
      ⟨rfl, hKind, fun _ => ⟨_, rfl⟩, fun hText => nomatch hText⟩ (fun _ => hSuccess)
      w₁.conn.m_errorHandle (.of p .resultSet)
    rw [OciResult.orThrow, if_pos rfl]
    exact hTail

/-- A new parameter before its attachment. -/
theorem attaching_start (w : World) (s : Nat) :
    Attaching w { w with
      fresh := w.fresh + 1
      trace := .acquire ⟨.parameter, w.fresh⟩ none :: w.trace
      params := Function.update w.params w.fresh {} } s w.fresh {} id := by
  have hC := (conserves_acquire w.fresh w .parameter
    fun _ (hp : none = some _) => nomatch hp).trans
    (conserves_modifyParam (p := w.fresh) {}
      (fun hlt => absurd hlt (Nat.lt_irrefl _)) fun _ hr => nomatch hr)
  refine ⟨hC.made ?_ ?_ (by simp), rfl, rfl, rfl, by simp, fun p' hp' => by simp [hp'],
    fun _ _ _ => rfl, fun x => released_acquire⟩
  · simp [World.owned, World.paramOwned, ptr]
  · intro y hy
    rw [List.append_nil] at hy
    rw [List.mem_singleton.mp hy]
    exact ⟨Nat.le_refl _, Nat.lt_succ_self _⟩

/-- `attach` returns exactly when the bind completes. -/
theorem wp_attachParameter (h : Attaching w w₁ s p {} id) (name : TString) (type : DataType) :
    wp (Parameter.attach p s name type)
      (fun _ w' => w.BindCompletes name type ∧ ∃ param' t, param'.Typed name t ∧
        Attaching w w' s p param' (registered w.cfg true name (.of p t)))
      (fun _ w' => ¬ w.BindCompletes name type ∧ ∃ param' t done,
        (done = true ↔ w.BindRegisters name type) ∧
        Attaching w w' s p param' (registered w.cfg done name (.of p t))) w₁ := by
  rw [Parameter.attach, wp_bind, wp_modifyParam, h.param, wp_bind]
  have h₂ := h.modifyParam { m_paramName := name } rfl rfl
  refine wp_mono (wp_setupType h₂ rfl ⟨rfl, rfl⟩ type)
    (fun _ w₃ ⟨param₃, hSetUp, h₃⟩ => ?_)
    (fun _ w₃ ⟨hNone, param₃, h₃⟩ => ?_)
  · rw [wp_bind, wp_modifyParam, h₃.param, wp_bind, wp_get]
    have h₄ := h₃.modifyParam { param₃ with
      m_indicator := ORADATA_NULL
      m_dataLen := 0
      m_fetchBuffer := none
      m_stmt := none
      m_rsHandle := none
      m_resultSet := none } hSetUp.resultSet.symm hSetUp.rsHandle.symm
    rw [h₄.param, wp_ite]
    split
    · rename_i hKind
      refine wp_mono (wp_bindResultSet h₄
          ⟨hSetUp.name, hSetUp.type, hSetUp.textSize, rfl, rfl⟩ hKind)
        (fun _ w₅ ⟨hDone, param₅, hName₅, h₅⟩ => ?_)
        (fun _ w₅ ⟨hFailed, param₅, done, hDone, h₅⟩ => ?_)
      · exact ⟨hDone, param₅, _, hName₅, h₅⟩
      · exact ⟨hFailed, param₅, _, done, hDone, h₅⟩
    · rename_i hKind
      refine wp_mono (wp_bindValue h₄
          ⟨hSetUp.name, hSetUp.type, hSetUp.textSize, rfl, rfl⟩ hKind)
        (fun _ w₅ ⟨hDone, param₅, hName₅, h₅⟩ => ?_)
        (fun _ w₅ ⟨hFailed, param₅, done, hDone, h₅⟩ => ?_)
      · exact ⟨hDone, param₅, _, hName₅, h₅⟩
      · exact ⟨hFailed, param₅, _, done, hDone, h₅⟩
  · have hNot : ¬ w.BindRegisters name type := fun ⟨t, ht, _⟩ => by
      rw [hNone] at ht
      cases ht
    exact ⟨fun hc => hNot hc.1, param₃, .unknown, false, by simp [hNot], h₃⟩

/-- **The constructor of a parameter** returns exactly when the bind completes;
otherwise all it made is released again, but for the registration. -/
theorem wp_newParameter (s : Nat) (name : TString) (type : DataType)
    (hCursors : w.CursorsBelow w.fresh) :
    wp (Parameter.new s name type)
      (fun p w' => p = w.fresh ∧ w.BindCompletes name type ∧ ∃ param' t,
        param'.Typed name t ∧ Attaching w w' s p param' (registered w.cfg true name (.of p t)))
      (fun _ w' => ¬ w.BindCompletes name type ∧ Conserves w.fresh w w' [] ∧
        ∃ w₁ param' t done own, (done = true ↔ w.BindRegisters name type) ∧
          Attaching w w₁ s w.fresh param' (registered w.cfg done name (.of w.fresh t)) ∧
          own = w₁.owned ⟨.parameter, w.fresh⟩ ∧ Frees w₁ w' own own) w := by
  rw [Parameter.new, wp_bind, wp_acquire, wp_bind, wp_modifyParam, wp_bind]
  refine wp_constructing rfl (wp_mono (wp_attachParameter (attaching_start w s) name type)
    (fun _ w' hDone => ?_) (fun e w' hFailed => ?_))
  · exact ⟨rfl, hDone⟩
  · obtain ⟨hNot, param', t, done, hDone, h'⟩ := hFailed
    refine wp_mono (wp_releaseObj 1 (.inr (.inr rfl))
      (h'.gains.conserves.cursors _ (Nat.le_refl _) hCursors) h'.gains.nodup)
      (fun _ w'' hF => ?_) (fun _ _ hE => hE)
    exact ⟨hNot, h'.gains.conserves.undo hF h'.gains.new, w', param', t, done, _, hDone, h', rfl,
      hF⟩

end Rules

end Epol
