import EpOraLibrary.Session.Ready

/-!
# EpOraLibrary — what an execution sends

OCI is not handed a value but the addresses of a parameter: its buffer,
`m_indicator` and `m_dataLen`. An execution looks there, so what it sends is
what stands there then, however many calls were made since the `Bind`.

* `World.bound` — what OCI finds at the addresses it was handed.
* `Parameter.Measured` — `m_dataLen` is the length of the value.
* `registers_call`, `carries_call` — one call of a session.
* `session_sends_last` — **an execution sends the value that was assigned last.**

The memory of a placeholder that the statement itself assigns is written by the
server; it is not the subject here.
-/

namespace Epol

open Ledger Prog Runs Register

variable {w w' : World} {s p h : Nat} {cfg : Setting} {t : DataType} {name : TString}
  {held : List Res} {content : Option Content}

-- ---------------------------------------------------------------------------
-- What OCI finds
-- ---------------------------------------------------------------------------

/-- The length of a value in the buffer; that of a text with its terminator. -/
def Content.size (cfg : Setting) : Content → Nat
  | .text s => (s.length + 1) * cfg.tcharSize
  | .real _ => sizeofOciNumber
  | .int _ => sizeofOciNumber
  | .date _ => sizeofOciDate

/-- What stands in the memory of a registration: NULL, or as many bytes as the
length says. Outside is `none` for the memory of a cursor. -/
def World.bound (w : World) (reg : Registration) : Option (Option (List Nat)) :=
  match reg.valuep, reg.indp, reg.alenp with
  | .buffer p, some (.indicator q), some (.dataLen r) =>
    (w.params p).m_fetchBuffer.map fun buf =>
      if (w.params q).m_indicator = ORADATA_NULL then none
      else some ((List.range (w.params r).m_dataLen).map buf)
  | _, _, _ => none

/-- The bytes of the value, up to its length: of an `OCIDate` the last is not
used. -/
def Content.SentAs (cfg : Setting) (content : Content) (data : List Nat) : Prop :=
  data.length = content.size cfg ∧ ∃ bytes, content.bytes cfg = .ok bytes ∧ bytes <+: data

/-- An execution sends NULL, or the value. -/
def World.Sends (w : World) (reg : Registration) : Option Content → Prop
  | none => w.bound reg = some none
  | some content => ∃ data, w.bound reg = some (some data) ∧ content.SentAs w.cfg data

/-- `m_dataLen` is the length of every number and every date, and of the text
that is held. -/
def Parameter.Measured (cfg : Setting) (t : DataType) (param : Parameter)
    (held : Option Content) : Prop :=
  ∀ content : Content, content.type = t → (t = .text → held = some content) →
    param.m_dataLen = content.size cfg

/-- The bytes of a value are not longer than it is. -/
theorem Content.Stands.length_le {value : Content} {buf : Nat → Nat} {bytes : List Nat}
    (hStands : value.Stands cfg buf) (hCodec : cfg.NumberCodec)
    (hBytes : value.bytes cfg = .ok bytes) : bytes.length ≤ value.size cfg := by
  cases value with
  | text text =>
    obtain rfl := Except.ok.inj hBytes
    rw [List.length_append, cfg.length_textBytes, cfg.length_tcharBytes, Content.size,
      Nat.succ_mul]
  | real x => exact Nat.le_of_eq (hCodec.realSize x bytes hBytes)
  | int x => exact Nat.le_of_eq (hCodec.intSize x bytes hBytes)
  | date dateTime =>
    obtain rfl := Except.ok.inj hBytes
    show 7 ≤ sizeofOciDate
    decide

/-- **What is held is sent.** -/
theorem Parameter.Holding.sends (hCodec : w.cfg.NumberCodec)
    (hP : (w.params p).Holding w.cfg t content)
    (hLength : (w.params p).Measured w.cfg t content) (hType : t ≠ .resultSet) :
    w.Sends (.of p t) content := by
  obtain ⟨buf, hBuf, hStands⟩ := hP.buffer
  have hBound : w.bound (.of p t) = some (if (w.params p).m_indicator = ORADATA_NULL then none
      else some ((List.range (w.params p).m_dataLen).map buf)) := by
    rw [Registration.of, if_neg hType]
    show (w.params p).m_fetchBuffer.map _ = _
    rw [hBuf]
    rfl
  cases content with
  | none =>
    show w.bound _ = some none
    rw [hBound, if_pos (hP.indicator.mpr rfl)]
  | some value =>
    obtain ⟨hKind, hStands⟩ := hStands value rfl
    obtain ⟨bytes, hBytes, hHolds⟩ := hStands.bytes
    have hSize := hLength value hKind fun _ => rfl
    have hThere : (w.params p).m_indicator ≠ ORADATA_NULL := fun hNull => by
      cases hP.indicator.mp hNull
    refine ⟨(List.range (w.params p).m_dataLen).map buf, by rw [hBound, if_neg hThere], ?_, bytes,
      hBytes, ?_⟩
    · rw [List.length_map, List.length_range, hSize]
    · rw [← hHolds.range_map, hSize, List.prefix_iff_eq_take, List.length_map, List.length_range,
        ← List.map_take, List.take_range, Nat.min_eq_left (hStands.length_le hCodec hBytes)]

-- ---------------------------------------------------------------------------
-- The length
-- ---------------------------------------------------------------------------

/-- A call that stores no text leaves `m_dataLen`. -/
theorem dataLen_registerCall {call : RegisterCall} (hKeeps : ¬ call.SetsLength) :
    Respects (fun w w' => (w'.params p).m_dataLen = (w.params p).m_dataLen) (call.exec p) := by
  have hFrame : Frame fun w w' : World => (w'.params p).m_dataLen = (w.params p).m_dataLen :=
    ⟨fun _ => rfl, fun hst htu => Eq.trans htu hst⟩
  refine respects_registerCall hFrame (fun _ _ _ => rfl) call
    fun f _ hLength => respects_modify fun w => ?_
  simp only [Function.update_self]
  exact hLength.resolve_left hKeeps _

/-- What a text parameter holds after a call that stores no text, it held
before. -/
theorem text_of_step {call : RegisterCall} (hKeeps : ¬ call.SetsLength) {value : Content}
    (hValue : Register.step (RegisterCall.effect cfg .text) content call = some value) :
    content = some value := by
  have hRejected : ∀ {other : Content}, call.assigns = some (some other) → other.type ≠ .text →
      content = some value := by
    intro other hAssigns hOther
    have hRej : other.Rejected cfg .text := .inl fun hText => hOther hText.symm
    rw [Register.step, RegisterCall.effect_of_assigns hAssigns, if_pos hRej] at hValue
    exact hValue
  cases call with
  | assignText text =>
    have hEmpty : text.length = 0 := Classical.not_not.mp hKeeps
    have hClear : RegisterCall.effect cfg .text (.assignText text) = .clear :=
      RegisterCall.effect_clear_iff.mpr (congrArg some (if_pos hEmpty))
    rw [Register.step, hClear] at hValue
    cases hValue
  | assignReal x => exact hRejected rfl fun hText => by cases hText
  | assignInt x => exact hRejected rfl fun hText => by cases hText
  | assignDate dateTime => exact hRejected rfl fun hText => by cases hText
  | toNull => cases hValue
  | _ => exact hValue

/-- The length of a text that was stored. -/
theorem dataLen_assigned {text : TString} {param : Parameter}
    (hSize : param.m_size = MAX_OUTPUT_TEXT_BYTES) (hText : text.length ≠ 0)
    (hFits : cfg.Fits text) :
    (Parameter.assigned cfg text param).m_dataLen = (text.length + 1) * cfg.tcharSize := by
  have hRoom := hFits.2
  show (if text.length = 0 then param.m_dataLen
    else (Parameter.storedLength cfg param.m_size text + cfg.tcharSize) % 2 ^ 16) = _
  rw [if_neg hText, hSize, cfg.storedChars_mul, hFits.storedChars, ← Nat.succ_mul]
  refine Nat.mod_eq_of_lt (Nat.lt_of_le_of_lt hRoom ?_)
  decide

/-- **One call on a parameter** keeps `m_dataLen` the length of what it holds. -/
theorem measured_step {call : RegisterCall} (hP : (w.params p).Holding w.cfg t content)
    (hLength : (w.params p).Measured w.cfg t content) (hFits : call.Fits w.cfg) :
    ((call.step p w).params p).Measured w.cfg t
      (Register.step (RegisterCall.effect w.cfg t) content call) := by
  by_cases hStores : call.SetsLength ∧ t = .text
  · obtain ⟨hSets, rfl⟩ := hStores
    cases call with
    | assignText text =>
      intro value _ hHeld
      have hText : text.length ≠ 0 := hSets
      have hAssigns : (RegisterCall.assignText text).assigns = some (some (.text text)) :=
        congrArg some (if_neg hText)
      have hTaken : ¬ (Content.text text).Rejected w.cfg .text := Content.not_rejected rfl rfl
      have hSame : some value = some (.text text) := by
        rw [← hHeld rfl, Register.step, RegisterCall.effect_of_assigns hAssigns, if_neg hTaken]
        rfl
      obtain rfl := Option.some.inj hSame
      have hRun := assignText_eq hP.type text
      have hStep : (RegisterCall.assignText text).step p w = { w with
          params := Function.update w.params p (Parameter.assigned w.cfg text (w.params p)) } := by
        rw [RegisterCall.step, Prog.exec, RegisterCall.exec, hRun]
      rw [hStep]
      simp only [Function.update_self]
      exact dataLen_assigned (hP.size rfl) hText (hFits text rfl)
    | _ => exact hSets.elim
  · -- the length is left: the call stores no text, or throws
    have hSame : ((call.step p w).params p).m_dataLen = (w.params p).m_dataLen := by
      by_cases hSets : call.SetsLength
      · cases call with
        | assignText text =>
          have hText : text.length ≠ 0 := hSets
          have hRejected : wp (Parameter.assignText p text)
              (fun _ w' => w'.params = w.params) (fun _ w' => w'.params = w.params) w := by
            rw [Parameter.assignText, wp_bind, wp_get]
            dsimp only
            rw [wp_ite, if_neg hText, wp_ite, if_neg fun hKind => hStores ⟨hSets, hP.type ▸ hKind⟩,
              wp_throw]
          have hParams : ((RegisterCall.assignText text).step p w).params = w.params :=
            (wp_exec (P := fun w' : World => w'.params = w.params)).mp hRejected
          rw [hParams]
        | _ => exact hSets.elim
      · exact wp_exec.mp (dataLen_registerCall hSets w)
    intro value hKind hHeld
    rw [hSame]
    refine hLength value hKind fun hText => ?_
    subst hText
    exact text_of_step (fun hSets => hStores ⟨hSets, rfl⟩) (hHeld rfl)

-- ---------------------------------------------------------------------------
-- The length of a new parameter
-- ---------------------------------------------------------------------------

/-- The buffer of a number or a date is as long as one. -/
def Parameter.Sized (cfg : Setting) (param : Parameter) : Prop :=
  ∀ value : Content, value.type = param.m_paramType → value.type ≠ .text →
    param.m_size = value.size cfg

/-- `setupType` takes the size of the type it finds. -/
theorem typeOf_size {pointerSize : Nat} {type : DataType} {pre : TChar}
    {as : DataType × Nat × Nat} (hAs : Parameter.typeOf pointerSize type pre = some as)
    {value : Content} (hKind : value.type = as.1) (hNot : value.type ≠ .text) :
    as.2.2 = value.size cfg := by
  unfold Parameter.typeOf at hAs
  split at hAs
  · cases hAs
    cases value <;> first | rfl | cases hKind
  split at hAs
  · cases hAs
    cases value <;> first | rfl | cases hKind
  split at hAs
  · cases hAs
    exact absurd hKind hNot
  split at hAs
  · cases hAs
    cases value <;> cases hKind
  · cases hAs

theorem sized_setupType (name : TString) (type : DataType) :
    wp (Parameter.setupType p name type) (fun _ w' => (w'.params p).Sized w'.cfg)
      (fun _ _ => True) w := by
  have hTake : ∀ {pre : TChar} {paramType : DataType} {ociType size : Nat} (w₁ : World),
      Parameter.typeOf w.cfg.pointerSize type pre = some (paramType, ociType, size) →
      wp (modifyParam p fun param => { param with
        m_paramType := paramType
        m_ociType := ociType
        m_size := size })
      (fun _ w' => (w'.params p).Sized w'.cfg) (fun _ _ => True) w₁ := by
    intro pre paramType ociType size w₁ hAs
    rw [wp_modifyParam]
    simp only [Function.update_self]
    exact fun value hKind hNot => typeOf_size hAs hKind hNot
  rw [Parameter.setupType, wp_bind, wp_get]
  dsimp only
  rw [wp_ite]
  by_cases hArray : firstChar (if firstChar name = ':'.toNat then name.tail else name) = PP_ARRAY
  · rw [if_pos hArray, wp_bind, wp_modifyParam]
    split
    · rename_i hAs
      exact hTake _ hAs
    · trivial
  · rw [if_neg hArray]
    split
    · rename_i hAs
      exact hTake _ hAs
    · trivial

/-- `bind` sets `m_dataLen` to the size of the buffer. -/
theorem measured_bind (hSized : (w.params p).Sized w.cfg) :
    wp (Parameter.bind p s)
      (fun _ w' => (w'.params p).Measured w'.cfg (w'.params p).m_paramType none)
      (fun _ _ => True) w := by
  have hTail : ∀ (w₁ : World) (stmt error : Option Nat) (name : TString) (reg : Registration),
      (w₁.params p).Measured w₁.cfg (w₁.params p).m_paramType none → wp (do
        let result ← ociBindByName stmt error name reg
        let result ← Parameter.setCharset result
        if result ≠ .success then throwOnError result error (some name)
        modifyParam p fun param => { param with m_stmt := some s })
      (fun _ w' => (w'.params p).Measured w'.cfg (w'.params p).m_paramType none)
      (fun _ _ => True) w₁ := by
    intro w₁ stmt error name reg hMeasured
    rw [wp_bind]
    refine wp_mono (sameParams_ociBindByName stmt error name reg w₁) (fun result w₂ hSame₂ => ?_)
      (fun _ _ _ => trivial)
    rw [wp_bind]
    refine wp_mono (sameParams_setCharset result w₂) (fun result w₃ hSame₃ => ?_)
      (fun _ _ _ => trivial)
    have hSame := frame_sameParams.trans hSame₂ hSame₃
    simp only [wp_bind, wp_ite]
    split
    · exact wp_throwOnError fun _ _ => trivial
    · rw [wp_modifyParam, hSame.1, hSame.2]
      simp only [Function.update_self]
      exact hMeasured
  have hSet : ∀ buffer, Parameter.Measured w.cfg (w.params p).m_paramType { w.params p with
      m_fetchBuffer := buffer
      m_dataLen := (w.params p).m_size % 2 ^ 16 } none := by
    intro buffer value hKind hHeld
    have hNot : value.type ≠ .text := fun hText => by cases hHeld (hKind ▸ hText)
    show (w.params p).m_size % 2 ^ 16 = value.size w.cfg
    rw [hSized value hKind hNot]
    cases value <;> first | rfl | exact absurd rfl hNot
  rw [Parameter.bind, wp_bind, wp_get]
  dsimp only
  cases Parameter.initial w.cfg (w.params p).m_paramType with
  | none => trivial
  | some buffer =>
    rw [wp_ite]
    split
    · rw [wp_bind, wp_pass, wp_bind, wp_modifyParam]
      refine hTail _ _ _ _ _ ?_
      simp only [Function.update_self]
      exact hSet _
    · rw [wp_bind, wp_modifyParam]
      refine hTail _ _ _ _ _ ?_
      simp only [Function.update_self]
      exact hSet _

/-- `attach` makes a cursor, or a parameter that is as long as its values. -/
theorem measured_attach {w₀ : World} {type : DataType} (h : Attaching w₀ w s p {} id) :
    wp (Parameter.attach p s name type)
      (fun _ w' => (w'.params p).m_paramType = .resultSet ∨
        (w'.params p).Measured w'.cfg (w'.params p).m_paramType none)
      (fun _ _ => True) w := by
  rw [Parameter.attach, wp_bind, wp_modifyParam, h.param, wp_bind]
  refine wp_mono (wp_and (wp_setupType (h.modifyParam { m_paramName := name } rfl rfl) rfl
    ⟨rfl, rfl⟩ type) (sized_setupType name type)) ?_ (fun _ _ _ => trivial)
  rintro _ w₁ ⟨⟨param, hSetUp, h₁⟩, hSized⟩
  have h₂ := h₁.modifyParam { param with
    m_indicator := ORADATA_NULL
    m_dataLen := 0
    m_fetchBuffer := none
    m_stmt := none
    m_rsHandle := none
    m_resultSet := none } hSetUp.resultSet.symm hSetUp.rsHandle.symm
  rw [h₁.param] at hSized
  rw [wp_bind, wp_modifyParam, h₁.param, wp_bind, wp_get, wp_ite, h₂.param]
  split
  · rename_i hKind
    refine wp_mono (wp_bindResultSet h₂ ⟨hSetUp.name, hSetUp.type, hSetUp.textSize, rfl, rfl⟩ hKind)
      ?_ (fun _ _ _ => trivial)
    rintro _ w' ⟨-, param', hTyped, hA⟩
    refine .inl ?_
    rw [hA.param]
    exact hTyped.type
  · refine wp_mono (measured_bind ?_) (fun _ _ h => .inr h) (fun _ _ _ => trivial)
    rw [h₂.param]
    exact hSized

/-- **A freshly bound parameter** is as long as its values. -/
theorem measured_statementBind {type : DataType} {w₀ : World}
    (hBind : Statement.bind s name type w₀ = .ok p w)
    (hType : (w.params p).m_paramType ≠ .resultSet) :
    (w.params p).Measured w.cfg (w.params p).m_paramType none := by
  have hNew : wp (Statement.bind s name type)
      (fun p w' => (w'.params p).m_paramType = .resultSet ∨
        (w'.params p).Measured w'.cfg (w'.params p).m_paramType none) (fun _ _ => True) w₀ := by
    rw [Statement.bind, wp_bind, Parameter.new, wp_bind, wp_acquire, wp_bind, wp_modifyParam,
      wp_bind]
    refine wp_constructing rfl (wp_mono (measured_attach (attaching_start w₀ s))
      (fun _ w' hLength => ?_) fun _ w' _ => wp_trivial _ w')
    rw [wp_pure, wp_bind, wp_get, wp_bind, wp_modifyStmt, wp_pure]
    exact hLength
  exact (of_wp_ok hNew hBind).resolve_left hType

-- ---------------------------------------------------------------------------
-- What stays registered
-- ---------------------------------------------------------------------------

/-- The handle `h` has the memory `reg` bound to the placeholder the name is taken
for, by that name or by another of the placeholder. -/
def World.BoundTo (w : World) (h : Nat) (name : TString) (reg : Registration) : Prop :=
  ∃ e ∈ (w.oci.stmt h).binds, w.cfg.placeholder e.1 = w.cfg.placeholder name ∧ e.2 = reg

/-- The parameter `p` of the statement `s` is found under the name, and its memory
is what the placeholder is bound to. -/
structure World.Registers (w : World) (s p : Nat) (name : TString) (t : DataType) : Prop where
  param : p ∈ (w.stmts s).m_parameters
  find  : (w.stmts s).find name = some p
  binds : ∃ h, (w.stmts s).m_stmtHandle = some h ∧
    ∀ reg, w.BoundTo h name reg ↔ reg = .of p t

/-- The call does not release the statement `s`, nor bind the placeholder again. -/
def SessionCall.KeepsBound (cfg : Setting) (s : Nat) (name : TString) : SessionCall → Prop
  | .call (.bind s' name' _) => s' = s → cfg.placeholder name' ≠ cfg.placeholder name
  | .call (.release x) => x ≠ ⟨.statement, s⟩
  | _ => True

instance (cfg : Setting) (s : Nat) (name : TString) (l : SessionCall) :
    Decidable (l.KeepsBound cfg s name) :=
  match l with
  | .call (.bind s' name' _) =>
    inferInstanceAs (Decidable (s' = s → cfg.placeholder name' ≠ cfg.placeholder name))
  | .call (.release x) => inferInstanceAs (Decidable (x ≠ ⟨.statement, s⟩))
  | .call (.execute _) | .call (.prepare _) | .call (.select _ _) | .call (.stmtExecute _)
  | .call (.stmtSelect _ _) | .call (.next _) | .register _ _ _ | .toResultSet _ _
  | .cursorNext _ _ => .isTrue trivial

/-- A registration for another placeholder leaves what this one is bound to. -/
theorem boundTo_registered {done : Bool} {name' : TString} {reg reg' : Registration}
    (hne : w.cfg.placeholder name' ≠ w.cfg.placeholder name) (hCfg : w'.cfg = w.cfg)
    (hBinds : (w'.oci.stmt h).binds = registered w.cfg done name' reg' (w.oci.stmt h).binds) :
    w'.BoundTo h name reg ↔ w.BoundTo h name reg := by
  unfold World.BoundTo
  rw [hBinds, hCfg, registered]
  split
  · constructor
    · rintro ⟨e, hMem, hName, hReg⟩
      rcases List.mem_cons.mp hMem with rfl | hMem
      · exact absurd hName hne
      · exact ⟨e, (List.mem_filter.mp hMem).1, hName, hReg⟩
    · rintro ⟨e, hMem, hName, hReg⟩
      have hOther : w.cfg.placeholder e.1 ≠ w.cfg.placeholder name' := fun heq =>
        hne (heq.symm.trans hName)
      refine ⟨e, List.mem_cons_of_mem _ ?_, hName, hReg⟩
      exact List.mem_filter.mpr ⟨hMem, decide_eq_true hOther⟩
  · exact Iff.rfl

/-- The registration just made is the only one of its placeholder. -/
theorem boundTo_registered_self {reg reg' : Registration} (hCfg : w'.cfg = w.cfg)
    (hBinds : (w'.oci.stmt h).binds = registered w.cfg true name reg' (w.oci.stmt h).binds) :
    w'.BoundTo h name reg ↔ reg = reg' := by
  unfold World.BoundTo
  rw [hBinds, hCfg, registered, if_pos rfl]
  constructor
  · rintro ⟨e, hMem, hName, rfl⟩
    rcases List.mem_cons.mp hMem with rfl | hMem
    · rfl
    · exact absurd hName (of_decide_eq_true (List.mem_filter.mp hMem).2)
  · rintro rfl
    exact ⟨(name, reg), List.mem_cons_self, rfl, rfl⟩

/-- **A `Bind`** of another placeholder, whether it returns or throws. -/
theorem World.Registers.bind (hR : w.Registers s p name t) (hP : Placed w held)
    (hs : ⟨.statement, s⟩ ∈ held) {name' : TString}
    (hne : w.cfg.placeholder name' ≠ w.cfg.placeholder name) (type : DataType) :
    wp (Statement.bind s name' type) (fun _ w' => w'.Registers s p name t)
      (fun _ w' => w'.Registers s p name t) w := by
  have hOld : s < w.fresh := hP.below (P := .object ⟨.statement, s⟩) hs (mem_owned_self w _)
  obtain ⟨h, hh, hBinds⟩ := hR.binds
  have hHandle : h < w.fresh := hP.below (P := .cursor h) hs (mem_owned_stmtHandle hh)
  refine wp_mono (wp_statementBind s name' type hP.sound.cursors) ?_ ?_
  · rintro p' w' ⟨rfl, -, w₁, param, t', -, hA, rfl⟩
    have hStmt : (w₁.withParam s w.fresh name').stmts s = { w.stmts s with
        m_parameters := (w.stmts s).m_parameters ++ [w.fresh]
        m_parametersMap := mapInsert name' w.fresh (w.stmts s).m_parametersMap } := by
      simp [World.withParam, hA.stmts]
    refine ⟨?_, ?_, h, ?_, fun reg => ?_⟩
    · rw [hStmt]
      exact List.mem_append_left _ hR.param
    · have hName : name ≠ name' := fun heq => hne (heq ▸ rfl)
      rw [hStmt, Statement.find, mapFind_mapInsert, if_neg hName]
      exact hR.find
    · rw [hStmt]
      exact hh
    · exact (boundTo_registered hne hA.cfg (hA.binds h hh hHandle)).trans (hBinds reg)
  · rintro e w' ⟨-, -, w₁, param, t', done, own, -, hA, rfl, hF⟩
    have hStmt : w'.stmts s = w.stmts s := by
      rw [← hA.stmts]
      refine hF.untouched ⟨.statement, s⟩ fun hMem => ?_
      exact absurd (hA.gains.new _ hMem).1 (Nat.not_le_of_lt hOld)
    have hOci : w'.oci = w₁.oci := by rw [hF.same]
    refine ⟨?_, ?_, h, ?_, fun reg => ?_⟩
    · rw [hStmt]
      exact hR.param
    · rw [hStmt]
      exact hR.find
    · rw [hStmt]
      exact hh
    · have hCfg : w'.cfg = w.cfg := by rw [hF.same, hA.cfg]
      have hBinds' := hA.binds h hh hHandle
      rw [← hOci] at hBinds'
      exact (boundTo_registered hne hCfg hBinds').trans (hBinds reg)

/-- The record of a statement stays in a call that neither binds to it nor
releases it. -/
theorem Placed.steady_stmt (hP : Placed w held) {l : SessionCall}
    (hPermits : App.Permits ⟨w, held⟩ l) (hs : ⟨.statement, s⟩ ∈ held)
    (hBind : ∀ name type, l ≠ .call (.bind s name type))
    (hRelease : l ≠ .call (.release ⟨.statement, s⟩)) :
    wp l.run (fun _ w' => Steady w w' ⟨.statement, s⟩) (fun _ w' => Steady w w' ⟨.statement, s⟩)
      w := by
  have hSelf : ∀ {w'}, (∀ x ∈ w.owned ⟨.statement, s⟩, Steady w w' x) →
      Steady w w' ⟨.statement, s⟩ := fun hSteady => hSteady _ (mem_owned_self w _)
  have hCall : l.Keeps ⟨.statement, s⟩ → wp l.run (fun _ w' => Steady w w' ⟨.statement, s⟩)
      (fun _ w' => Steady w w' ⟨.statement, s⟩) w := fun hKeeps =>
    wp_mono (steady_call hP hPermits hs hKeeps) (fun _ _ h => hSelf h) (fun _ _ h => hSelf h)
  cases l with
  | call l =>
    cases l with
    | bind s' name type =>
      refine hCall fun heq => hBind name type ?_
      obtain rfl : s = s' := congrArg Res.id heq
      rfl
    | release x => exact hCall fun heq => hRelease (heq ▸ rfl)
    | _ => exact hCall trivial
  | toResultSet s' p =>
    have hOld : s < w.fresh := hP.below (P := .object ⟨.statement, s⟩) hs (mem_owned_self w _)
    have hNot : ¬ w.Reaches (.toResultSet s' p) (.object ⟨.statement, s⟩) := by
      rintro (hEq | ⟨hd, -, hEq⟩) <;> cases hEq
    exact wp_mono (hP.sound.touches _ hPermits) (fun _ _ hT => hT.steady hOld hNot)
      (fun _ _ hT => hT.steady hOld hNot)
  | _ => exact hCall trivial

/-- A call that does not bind to the statement leaves what its handle is bound to. -/
theorem Placed.same_binds (hP : Placed w held) {l : SessionCall}
    (hPermits : App.Permits ⟨w, held⟩ l) (hs : ⟨.statement, s⟩ ∈ held)
    (hh : (w.stmts s).m_stmtHandle = some h)
    (hBind : ∀ name type, l ≠ .call (.bind s name type)) : ¬ w.Reaches l (.binds h) := by
  intro hReach
  cases l with
  | call l =>
    cases l with
    | bind s' name type =>
      rcases hReach with hEq | ⟨hd, hh', hEq⟩
      · cases hEq
      · cases hEq
        have hOwner := hP.sound.owner_unique hs (hPermits ⟨.statement, s'⟩ rfl)
          (mem_owned_stmtHandle hh) (mem_owned_stmtHandle hh')
        obtain rfl : s' = s := congrArg Res.id hOwner
        exact hBind name type rfl
    | stmtExecute s' => rcases hReach with hEq | ⟨hd, hd', -, -, hEq⟩ <;> cases hEq
    | stmtSelect s' F => rcases hReach with hEq | ⟨hd, hd', -, -, hEq⟩ <;> cases hEq
    | next r => exact (not_nextReaches r 0 h w).2 hReach
    | release x =>
      obtain ⟨y, -, hEq⟩ := hReach
      cases hEq
    | _ => exact hReach
  | register s' p l => cases hReach
  | toResultSet s' p => rcases hReach with hEq | ⟨hd, -, hEq⟩ <;> cases hEq
  | cursorNext s' p =>
    obtain ⟨r, -, hReach⟩ := hReach
    exact (not_nextReaches r 0 h w).2 hReach

/-- **One call** that does not bind the placeholder again leaves it bound. -/
theorem registers_call (hP : Placed w held) {l : SessionCall} (hPermits : App.Permits ⟨w, held⟩ l)
    (hs : ⟨.statement, s⟩ ∈ held) (hR : w.Registers s p name t)
    (hKeeps : l.KeepsBound w.cfg s name) :
    wp l.run (fun _ w' => w'.Registers s p name t) (fun _ w' => w'.Registers s p name t) w := by
  by_cases hBind : ∃ name' type, l = .call (.bind s name' type)
  · obtain ⟨name', type, rfl⟩ := hBind
    rw [SessionCall.run, Call.run, wp_bind]
    exact wp_mono (hR.bind hP hs (hKeeps rfl) type) (fun _ _ h => h) (fun _ _ h => h)
  · have hBind : ∀ name' type, l ≠ .call (.bind s name' type) := fun name' type heq =>
      hBind ⟨name', type, heq⟩
    have hRelease : l ≠ .call (.release ⟨.statement, s⟩) := by
      rintro rfl
      exact hKeeps rfl
    obtain ⟨h, hh, hBinds⟩ := hR.binds
    have hHandle : h < w.fresh := hP.below (P := .binds h) hs (mem_owned_stmtHandle hh)
    have hNot := hP.same_binds hPermits hs hh hBind
    have hKept : ∀ {w'}, Steady w w' ⟨.statement, s⟩ → Touches w.fresh (w.Reaches l) w w' →
        w'.Registers s p name t := by
      intro w' hSteady hT
      have hStmt : w'.stmts s = { w.stmts s with m_isExecuted := (w'.stmts s).m_isExecuted } :=
        hSteady
      have hSame : (w'.oci.stmt h).binds = (w.oci.stmt h).binds := hT.same (.binds h) hHandle hNot
      refine ⟨?_, ?_, h, ?_, fun reg => ?_⟩
      · rw [hStmt]
        exact hR.param
      · rw [hStmt]
        exact hR.find
      · rw [hStmt]
        exact hh
      · unfold World.BoundTo
        rw [hSame, hT.cfg]
        exact hBinds reg
    exact wp_mono (wp_and (hP.steady_stmt hPermits hs hBind hRelease) (hP.sound.touches l hPermits))
      (fun _ _ h => hKept h.1 h.2) (fun _ _ h => hKept h.1 h.2)

-- ---------------------------------------------------------------------------
-- What a parameter carries
-- ---------------------------------------------------------------------------

/-- The parameter holds the value, and `m_dataLen` is its length. -/
structure World.Carries (w : World) (p : Nat) (cfg : Setting) (t : DataType)
    (content : Option Content) : Prop where
  setting : w.cfg = cfg
  value   : (w.params p).Holding cfg t content
  length  : (w.params p).Measured cfg t content

theorem World.Carries.sends (hC : w.Carries p cfg t content) (hCodec : cfg.NumberCodec)
    (hType : t ≠ .resultSet) : w.Sends (.of p t) content := by
  obtain ⟨rfl, hValue, hLength⟩ := hC
  exact hValue.sends hCodec hLength hType

theorem World.Carries.laws {calls : List RegisterCall} (hCodec : cfg.NumberCodec)
    (hC : w.Carries p cfg t (Register.content (RegisterCall.effect cfg t) calls)) :
    RegisterLaws cfg t p calls w := by
  obtain ⟨rfl, hValue, -⟩ := hC
  exact hValue.laws hCodec

/-- The call on the value of the parameter `p` of the statement `s`, if it is one. -/
def SessionCall.onParam (s p : Nat) : SessionCall → Option RegisterCall
  | .register s' p' l => if s' = s ∧ p' = p then some l else none
  | _ => none

/-- The calls on its value. -/
def callsOn (s p : Nat) (calls : List Served) : List RegisterCall :=
  calls.filterMap fun l => l.1.onParam s p

theorem onParam_eq_some {l : SessionCall} {call : RegisterCall} :
    l.onParam s p = some call ↔ l = .register s p call := by
  cases l with
  | register s' p' call' =>
    simp only [SessionCall.onParam, SessionCall.register.injEq]
    split
    · rename_i hSame
      simp [hSame]
    · rename_i hOther
      constructor
      · intro hSome
        cases hSome
      · rintro ⟨hs, hp, -⟩
        exact absurd ⟨hs, hp⟩ hOther
  | _ => exact ⟨fun hSome => (by cases hSome), fun heq => (by cases heq)⟩

/-- A call that is not made on the value of the parameter, nor releases its
statement, leaves its record. -/
theorem Placed.same_param (hP : Placed w held) {l : SessionCall}
    (hPermits : App.Permits ⟨w, held⟩ l) (hHas : App.HasParam ⟨w, held⟩ s p)
    (hType : (w.params p).m_paramType ≠ .resultSet) (hNone : l.onParam s p = none)
    (hRelease : l ≠ .call (.release ⟨.statement, s⟩)) :
    wp l.run (fun _ w' => w'.params p = w.params p) (fun _ w' => w'.params p = w.params p) w := by
  have hOwned := paramOwned_sub_stmt hHas.2 (mem_owned_self w ⟨.parameter, p⟩)
  have hOld : p < w.fresh := hP.below (P := .object ⟨.parameter, p⟩) hHas.1 hOwned
  have hStmt : ∀ {s'}, App.HasParam ⟨w, held⟩ s' p → s' = s := fun hHas' =>
    congrArg Res.id (hP.sound.owner_unique hHas.1 hHas'.1 hOwned
      (paramOwned_sub_stmt hHas'.2 (mem_owned_self w ⟨.parameter, p⟩)))
  have hApart : ¬ w.Reaches l (.object ⟨.parameter, p⟩) →
      wp l.run (fun _ w' => w'.params p = w.params p) (fun _ w' => w'.params p = w.params p) w :=
    fun hNot => wp_mono (hP.sound.touches l hPermits)
      (fun _ _ hT => (hT.same (.object ⟨.parameter, p⟩) hOld hNot).1)
      (fun _ _ hT => (hT.same (.object ⟨.parameter, p⟩) hOld hNot).1)
  have hNext : ∀ r, ¬ w.NextReaches r (.object ⟨.parameter, p⟩) := by
    rintro r (hEq | ⟨hd, -, hEq | ⟨c, -, hEq⟩⟩) <;> cases hEq
  cases l with
  | call l =>
    refine hApart fun hReach => ?_
    cases l with
    | bind s' name type => rcases hReach with hEq | ⟨hd, -, hEq⟩ <;> cases hEq
    | stmtExecute s' => rcases hReach with hEq | ⟨hd, hd', -, -, hEq⟩ <;> cases hEq
    | stmtSelect s' F => rcases hReach with hEq | ⟨hd, hd', -, -, hEq⟩ <;> cases hEq
    | next r => exact hNext r hReach
    | release x =>
      obtain ⟨y, hy, hEq⟩ := hReach
      cases hEq
      have hOwner := hP.sound.owner_unique hHas.1 (hPermits x rfl) hOwned hy
      exact hRelease (hOwner ▸ rfl)
    | _ => exact hReach
  | register s' p' call =>
    refine hApart fun hReach => ?_
    cases hReach
    obtain rfl := hStmt hPermits
    rw [SessionCall.onParam, if_pos ⟨rfl, rfl⟩] at hNone
    cases hNone
  | toResultSet s' p' =>
    by_cases hSame : p' = p
    · subst hSame
      rw [SessionCall.run, wp_bind, Parameter.toResultSet, wp_bind, wp_get]
      dsimp only
      rw [wp_ite, if_neg hType, wp_throw]
    · refine hApart ?_
      rintro (hEq | ⟨hd, -, hEq⟩)
      · exact hSame (congrArg Res.id (Place.object.inj hEq)).symm
      · cases hEq
  | cursorNext s' p' =>
    refine hApart ?_
    rintro ⟨r, -, hReach⟩
    exact hNext r hReach

/-- **One call**: on the value of the parameter it acts as on a register, any other
leaves the value. -/
theorem carries_call (hP : Placed w held) {l : SessionCall} (hPermits : App.Permits ⟨w, held⟩ l)
    (hHas : App.HasParam ⟨w, held⟩ s p) (hC : w.Carries p cfg t content) (hType : t ≠ .resultSet)
    (hCodec : cfg.NumberCodec) (hFits : ∀ call, l.onParam s p = some call → call.Fits cfg)
    (hRelease : l ≠ .call (.release ⟨.statement, s⟩)) :
    wp l.run
      (fun _ w' => w'.Carries p cfg t
        (run (Register.step (RegisterCall.effect cfg t)) content (l.onParam s p).toList))
      (fun _ w' => w'.Carries p cfg t
        (run (Register.step (RegisterCall.effect cfg t)) content (l.onParam s p).toList)) w := by
  obtain ⟨rfl, hValue, hLength⟩ := hC
  cases hCall : l.onParam s p with
  | none =>
    have hKept : ∀ {w'}, w'.params p = w.params p → Touches w.fresh (w.Reaches l) w w' →
        w'.Carries p w.cfg t content := by
      intro w' hSame hT
      refine ⟨hT.cfg, ?_, ?_⟩
      · rw [hSame]
        exact hValue
      · rw [hSame]
        exact hLength
    have hKind : (w.params p).m_paramType ≠ .resultSet := hValue.type ▸ hType
    exact wp_mono (wp_and (hP.same_param hPermits hHas hKind hCall hRelease)
      (hP.sound.touches l hPermits)) (fun _ _ h => hKept h.1 h.2) (fun _ _ h => hKept h.1 h.2)
  | some call =>
    obtain rfl := onParam_eq_some.mp hCall
    have hFit := hFits call hCall
    obtain ⟨hCfg, hHolding⟩ := holdingAfter_step hCodec hValue hFit
    have hStep : (call.step p w).Carries p w.cfg t
        (Register.step (RegisterCall.effect w.cfg t) content call) :=
      ⟨hCfg, hHolding, measured_step hValue hLength hFit⟩
    rw [SessionCall.run, wp_bind]
    exact wp_exec.mpr hStep

-- ---------------------------------------------------------------------------
-- Runs
-- ---------------------------------------------------------------------------

/-- The application holds the statement `s`; its parameter `p` is bound to the
placeholder and carries the value. -/
structure App.Binds (a : App) (cfg : Setting) (s p : Nat) (name : TString) (t : DataType)
    (content : Option Content) : Prop where
  placed    : Placed a.w a.held
  stmt      : ⟨.statement, s⟩ ∈ a.held
  registers : a.w.Registers s p name t
  carries   : a.w.Carries p cfg t content

/-- The call leaves the placeholder bound, and the texts it assigns to the
parameter fit its buffer. -/
def SessionCall.Serves (cfg : Setting) (s p : Nat) (name : TString) (l : SessionCall) : Prop :=
  l.KeepsBound cfg s name ∧ ∀ call, l.onParam s p = some call → call.Fits cfg

theorem callsOn_cons (l : Served) (calls : List Served) :
    callsOn s p (l :: calls) = (l.1.onParam s p).toList ++ callsOn s p calls := by
  unfold callsOn
  rw [List.filterMap_cons]
  cases l.1.onParam s p <;> rfl

/-- **One call** of a session. -/
theorem App.Binds.serve {a : App} (hB : a.Binds cfg s p name t content) (hType : t ≠ .resultSet)
    (hCodec : cfg.NumberCodec) {l : Served} (hServes : l.1.Serves cfg s p name) :
    (a.serve l).Binds cfg s p name t
      (Runs.run (Register.step (RegisterCall.effect cfg t)) content (l.1.onParam s p).toList) := by
  obtain ⟨hKeeps, hFits⟩ := hServes
  have hRelease : l.1 ≠ .call (.release ⟨.statement, s⟩) := by
    intro heq
    rw [heq] at hKeeps
    exact hKeeps rfl
  have hPlaced := hB.placed.answering l.2
  have hRegisters : (a.w.answering l.2).Registers s p name t :=
    ⟨hB.registers.param, hB.registers.find, hB.registers.binds⟩
  have hCarries : (a.w.answering l.2).Carries p cfg t content :=
    ⟨hB.carries.setting, hB.carries.value, hB.carries.length⟩
  refine ⟨hB.placed.serve l, ?_, ?_, ?_⟩
  · refine App.serve_of_wp (P := fun b => ⟨.statement, s⟩ ∈ b.held) (fun _ => hB.stmt) fun _ => ?_
    exact wp_mono (wp_trivial _ _)
      (fun _ _ _ => List.mem_append_right _ (mem_keeps hB.stmt hRelease)) (fun _ _ _ => hB.stmt)
  · exact App.serve_of_wp (P := fun b => b.w.Registers s p name t) (fun _ => hB.registers)
      fun hPermits => registers_call hPlaced hPermits hB.stmt hRegisters
        (hB.carries.setting.symm ▸ hKeeps)
  · refine App.serve_of_wp (P := fun b => b.w.Carries p cfg t _) (fun hDenied => ?_)
      fun hPermits => carries_call hPlaced hPermits ⟨hB.stmt, hB.registers.param⟩ hCarries hType
        hCodec hFits hRelease
    -- a call on the value is permitted
    have hNone : l.1.onParam s p = none := by
      cases hCall : l.1.onParam s p with
      | none => rfl
      | some call =>
        rw [onParam_eq_some.mp hCall] at hDenied
        exact absurd ⟨hB.stmt, hB.registers.param⟩ hDenied
    rw [hNone]
    exact hB.carries

/-- **Any calls** of a session. -/
theorem App.Binds.run {a : App} (hB : a.Binds cfg s p name t content) (hType : t ≠ .resultSet)
    (hCodec : cfg.NumberCodec) {calls : List Served}
    (hServes : ∀ l ∈ calls, l.1.Serves cfg s p name) :
    (Runs.run App.serve a calls).Binds cfg s p name t
      (Runs.run (Register.step (RegisterCall.effect cfg t)) content (callsOn s p calls)) := by
  induction calls generalizing a content with
  | nil => exact hB
  | cons l calls ih =>
    rw [run_cons, callsOn_cons, run_append]
    exact ih (hB.serve hType hCodec (hServes l List.mem_cons_self))
      fun l' hl' => hServes l' (List.mem_cons_of_mem _ hl')

/-- What a `Bind` that returned has registered. -/
theorem registers_bound {w₀ : World} {type : DataType} (hP : Placed w₀ held)
    (hs : ⟨.statement, s⟩ ∈ held) (hh : (w₀.stmts s).m_stmtHandle = some h)
    (hBind : Statement.bind s name type w₀ = .ok p w) :
    w.Registers s p name (w.params p).m_paramType := by
  have hHandle : h < w₀.fresh := hP.below (P := .cursor h) hs (mem_owned_stmtHandle hh)
  obtain ⟨rfl, -, w₁, param, t', hTyped, hA, rfl⟩ :=
    of_wp_ok (wp_statementBind s name type hP.sound.cursors) hBind
  have hStmt : (w₁.withParam s w₀.fresh name).stmts s = { w₀.stmts s with
      m_parameters := (w₀.stmts s).m_parameters ++ [w₀.fresh]
      m_parametersMap := mapInsert name w₀.fresh (w₀.stmts s).m_parametersMap } := by
    simp [World.withParam, hA.stmts]
  have hKind : ((w₁.withParam s w₀.fresh name).params w₀.fresh).m_paramType = t' := by
    show (w₁.params w₀.fresh).m_paramType = t'
    rw [hA.param, hTyped.type]
  refine ⟨?_, ?_, h, ?_, fun reg => ?_⟩
  · rw [hStmt]
    exact List.mem_append_right _ (List.mem_singleton_self _)
  · rw [hStmt, Statement.find, mapFind_mapInsert, if_pos rfl]
  · rw [hStmt]
    exact hh
  · rw [hKind]
    exact boundTo_registered_self hA.cfg (hA.binds h hh hHandle)

/-- The `Bind` that returned, as a call of a session. -/
theorem binds_bound {a : App} {type : DataType} {o : OciCall → OciResult}
    (hIn : InOrder a.w a.held) (hCfg : a.w.cfg = cfg) (hs : ⟨.statement, s⟩ ∈ a.held)
    (hReturns : result? (Statement.bind s name type) (a.w.answering o) = some p)
    {a' : App} (ha' : a' = a.serve (.call (.bind s name type), o))
    (hType : (a'.w.params p).m_paramType ≠ .resultSet) :
    a'.Binds cfg s p name (a'.w.params p).m_paramType none := by
  have hBind := eq_ok_of_result hReturns
  have hPermits : a.Permits (.call (.bind s name type)) := by
    rintro x hx
    obtain rfl := Option.some.inj hx
    exact hs
  have hRun : (SessionCall.call (.bind s name type)).run (a.w.answering o) =
      .ok none (exec (Statement.bind s name type) (a.w.answering o)) := by
    show EStateM.bind (Statement.bind s name type) _ (a.w.answering o) = _
    unfold EStateM.bind
    rw [hBind]
    rfl
  have hServe : a' = ⟨exec (Statement.bind s name type) (a.w.answering o), a.held⟩ := by
    rw [ha', App.serve, if_pos hPermits, hRun]
    rfl
  have hPlaced := hIn.placed.serve (.call (.bind s name type), o)
  rw [← ha'] at hPlaced
  have hw := (hIn.answering o).placed
  obtain ⟨h, hh⟩ := (hIn.ready _ hs).handle
  have hSetting : a'.w.cfg = cfg := by
    rw [hServe]
    have hTouches := hw.sound.touches (.call (.bind s name type)) hPermits
    have hSame := of_wp_ok (wp_mono hTouches (fun _ _ hT => hT.cfg) (fun _ _ _ => trivial)) hRun
    exact hSame.trans hCfg
  refine ⟨hPlaced, by rw [hServe]; exact hs, ?_, hSetting, ?_, ?_⟩
  · rw [hServe]
    exact registers_bound hw hs hh hBind
  · rw [← hSetting]
    rw [hServe] at hType ⊢
    exact bind_holding hBind hType
  · rw [← hSetting]
    rw [hServe] at hType ⊢
    exact measured_statementBind hBind hType

theorem cfg_serve {a : App} (hP : Placed a.w a.held) (l : Served) :
    (a.serve l).w.cfg = a.w.cfg :=
  App.serve_of_wp (P := fun b => b.w.cfg = a.w.cfg) (fun _ => rfl) fun hPermits =>
    wp_mono ((hP.answering l.2).sound.touches l.1 hPermits) (fun _ _ hT => hT.cfg)
      (fun _ _ hT => hT.cfg)

/-- **An execution sends the value that was assigned last.** A connection was
opened and closed any number of times before, an application made any calls of a
session, with any answers of OCI, and then a `Bind` on a statement returned the
number, date or text parameter `p`. After any further calls — on `p`, on the same
statement and on other objects — that neither release the statement nor bind the
placeholder again, by whichever of its names, the statement finds `p` under the name,
the readers of `p` obey the laws of a register of the calls made on it, and the
placeholder, by whichever name it was bound, is bound to one piece of memory, in
which OCI finds NULL or the value the last of these calls wrote, with its length. -/
theorem session_sends_last (cfg : Setting) (before : List ConnCall) (calls : List Served)
    (o : OciCall → OciResult) (name : TString) (type : DataType) :
    let a₀ := run App.serve (.opened cfg before) calls
    let a₁ := a₀.serve (.call (.bind s name type), o)
    let t := (a₁.w.params p).m_paramType
    cfg.NumberCodec → ⟨.statement, s⟩ ∈ a₀.held →
    result? (Statement.bind s name type) (a₀.w.answering o) = some p → t ≠ .resultSet →
    ∀ more : List Served, (∀ l ∈ more, l.1.Serves cfg s p name) →
      let a := run App.serve a₁ more
      (a.w.stmts s).find name = some p ∧ RegisterLaws cfg t p (callsOn s p more) a.w ∧
        ∃ h reg, (a.w.stmts s).m_stmtHandle = some h ∧
          (∀ reg', a.w.BoundTo h name reg' ↔ reg' = reg) ∧
          a.w.Sends reg (Register.content (RegisterCall.effect cfg t) (callsOn s p more)) := by
  intro a₀ a₁ t hCodec hs hReturns hType more hServes a
  have hIn : InOrder a₀.w a₀.held ∧ a₀.w.cfg = cfg :=
    run_invariant (I := fun a : App => InOrder a.w a.held ∧ a.w.cfg = cfg)
      (fun _ l hI => ⟨hI.1.serve l, (cfg_serve hI.1.placed l).trans hI.2⟩)
      ⟨inOrder_opened cfg before, (bare_opened cfg before).cfg⟩ calls
  have hStart : a₁.Binds cfg s p name t none := binds_bound hIn.1 hIn.2 hs hReturns rfl hType
  obtain ⟨-, -, hRegisters, hCarries⟩ := hStart.run hType hCodec hServes
  obtain ⟨h, hh, hBinds⟩ := hRegisters.binds
  exact ⟨hRegisters.find, hCarries.laws hCodec, h, .of p t, hh, hBinds,
    hCarries.sends hCodec hType⟩

/-- The statement 5 with a number, bound under another name of its placeholder. -/
def prepareNumber : List Served :=
  [(.call (.prepare (tstr "A")), allWell), (.call (.bind 5 (tstr ":nID") .unknown), allWell)]

/-- 42 is sent, another parameter is bound and assigned to, and the number is
2.5 when the statement is executed again. -/
def executeTwice : List Served :=
  [(.register 5 8 (.assignInt 42), allWell), (.call (.stmtExecute 5), allWell),
    (.call (.bind 5 (tstr "sName") .unknown), allWell),
    (.register 5 9 (.assignText (tstr "x")), allWell), (.register 5 8 .toNull, allWell),
    (.register 5 8 (.assignReal 0x4004000000000000), allWell),
    (.call (.stmtExecute 5), allWell)]

theorem session_sends_last_twice :
    let a := run App.serve ((run App.serve (.opened .converting [.open ⟨true, true, false⟩ allWell])
      prepareNumber).serve (.call (.bind 5 (tstr "nId") .unknown), allWell)) executeTwice
    ∃ h reg, (a.w.stmts 5).m_stmtHandle = some h ∧
      (∀ reg', a.w.BoundTo h (tstr "nId") reg' ↔ reg' = reg) ∧
      a.w.Sends reg (some (.real 0x4004000000000000)) := by
  have hMore := session_sends_last (s := 5) (p := 8) .converting [.open ⟨true, true, false⟩ allWell]
    prepareNumber allWell (tstr "nId") .unknown numberCodec_converting (by decide +kernel)
    (by decide +kernel) (by decide +kernel) executeTwice
  have hType : (((run App.serve (.opened .converting [.open ⟨true, true, false⟩ allWell])
      prepareNumber).serve (.call (.bind 5 (tstr "nId") .unknown), allWell)).w.params
      8).m_paramType = .number := by decide +kernel
  have hLast : Register.content (RegisterCall.effect .converting .number)
      (callsOn 5 8 executeTwice) = some (.real 0x4004000000000000) := rfl
  have hServes : ∀ l ∈ executeTwice, l.1.Serves .converting 5 8 (tstr "nId") := by
    intro l hl
    refine ⟨?_, ?_⟩
    · revert l
      decide
    · rintro call hCall text rfl
      have hThere : RegisterCall.assignText text ∈ callsOn 5 8 executeTwice :=
        List.mem_filterMap.mpr ⟨l, hl, hCall⟩
      simp [callsOn, executeTwice, SessionCall.onParam] at hThere
  obtain ⟨-, -, hSends⟩ := hMore hServes
  rw [hType, hLast] at hSends
  exact hSends

end Epol
