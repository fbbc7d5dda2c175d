import EpOraLibrary.Connection.Runs
import EpOraLibrary.Ownership.Calls

/-!
# EpOraLibrary — text parameters

What `operator= (EpTString)` stores in the buffer of a `DT_TEXT` parameter, and
what `ToString` makes of it. The length in bytes is narrowed to 16 bits before
it is compared with `m_size`, and a length of exactly `m_size` passes the
comparison: the copy then fills the buffer and the terminator lands behind it.

## Results

* `assignText_eq`              — an assignment as one change of the parameter.
* `text_assignments_inside_iff` — a sequence of assignments stays inside the
  buffer exactly when no text comes out at `m_size` bytes.
* `text_reads_back_iff`        — a text is read back, cut at the capacity,
  exactly when it fits or its narrowed length is cut at the capacity too.
-/

namespace Epol

open Ledger Prog Parameter

-- ---------------------------------------------------------------------------
-- Characters and bytes
-- ---------------------------------------------------------------------------

theorem Setting.length_tcharBytes (cfg : Setting) (ch : TChar) :
    (cfg.tcharBytes ch).length = cfg.tcharSize := by
  unfold Setting.tcharBytes Setting.tcharSize
  split <;> rfl

theorem writeBytes_eq_store (buf : Nat → Nat) (off : Nat) (bytes : List Nat) :
    writeBytes buf off bytes = Memory.store buf off bytes := rfl

/-- The texts of a build: no terminator in them, and every character fits a
`TCHAR`. -/
def Setting.IsText (cfg : Setting) (text : TString) : Prop :=
  ∀ ch : Nat, ch ∈ text → ch ≠ 0 ∧ ch < 2 ^ (8 * cfg.tcharSize)

/-- Two bytes make up a 16-bit character. -/
theorem low_add_high {n : Nat} (hn : n < 2 ^ 16) :
    n % 2 ^ 8 + n / 2 ^ 8 % 2 ^ 8 * 2 ^ 8 = n := by
  omega

/-- The bytes of a character are read as the character. -/
theorem Setting.tcharAt_holds {cfg : Setting} {buf : Nat → Nat} {k ch : Nat}
    (h : Memory.Holds buf (k * cfg.tcharSize) (cfg.tcharBytes ch))
    (hRange : ch < 2 ^ (8 * cfg.tcharSize)) : cfg.tcharAt buf k = ch := by
  unfold Setting.tcharSize at h hRange
  unfold Setting.tcharBytes at h
  unfold Setting.tcharAt
  split at h
  · rename_i hU
    rw [if_pos hU] at hRange
    rw [if_pos hU]
    have hLow := h 0 _ rfl
    have hHigh := h 1 _ rfl
    rw [Nat.add_zero] at hLow
    rw [hLow, hHigh]
    exact low_add_high hRange
  · rename_i hU
    rw [if_neg hU] at hRange
    rw [if_neg hU]
    have hByte := h 0 _ rfl
    rw [Nat.add_zero, Nat.mul_one] at hByte
    rw [hByte]
    exact Nat.mod_eq_of_lt hRange

-- ---------------------------------------------------------------------------
-- The stored length
-- ---------------------------------------------------------------------------

/-- The characters `operator= (EpTString)` stores. -/
def Setting.storedChars (cfg : Setting) (text : TString) : Nat :=
  storedLength cfg MAX_OUTPUT_TEXT_BYTES text / cfg.tcharSize

/-- Whole characters of the text are stored. -/
theorem storedLength_whole (cfg : Setting) (text : TString) :
    cfg.tcharSize ∣ storedLength cfg MAX_OUTPUT_TEXT_BYTES text ∧
      storedLength cfg MAX_OUTPUT_TEXT_BYTES text ≤ text.length * cfg.tcharSize := by
  unfold storedLength Setting.tcharSize MAX_OUTPUT_TEXT_BYTES
  cases cfg.unicode with
  | true =>
    simp only [if_true]
    split <;> omega
  | false =>
    simp only [Bool.false_eq_true, if_false]
    split <;> omega

theorem Setting.storedChars_mul (cfg : Setting) (text : TString) :
    storedLength cfg MAX_OUTPUT_TEXT_BYTES text = cfg.storedChars text * cfg.tcharSize :=
  (Nat.div_mul_cancel (storedLength_whole cfg text).1).symm

theorem Setting.storedChars_le (cfg : Setting) (text : TString) :
    cfg.storedChars text ≤ text.length := by
  have hLe := (storedLength_whole cfg text).2
  rw [cfg.storedChars_mul] at hLe
  exact Nat.le_of_mul_le_mul_right hLe cfg.tcharSize_pos

theorem Setting.storedChars_size (cfg : Setting) (text : TString) :
    cfg.storedChars text * cfg.tcharSize ≤ MAX_OUTPUT_TEXT_BYTES := by
  rw [← cfg.storedChars_mul]
  unfold storedLength MAX_OUTPUT_TEXT_BYTES
  dsimp only
  split <;> omega

/-- The copy fills the whole buffer for one narrowed length only. -/
theorem Setting.storedChars_full_iff (cfg : Setting) (text : TString) :
    cfg.storedChars text * cfg.tcharSize = MAX_OUTPUT_TEXT_BYTES ↔
      text.length * cfg.tcharSize % 2 ^ 16 = MAX_OUTPUT_TEXT_BYTES := by
  rw [← cfg.storedChars_mul]
  unfold storedLength MAX_OUTPUT_TEXT_BYTES
  dsimp only
  split <;> omega

/-- Where the copy leaves room at all, it leaves room for the terminator. -/
theorem Setting.storedChars_room {cfg : Setting} {text : TString}
    (hRoom : cfg.storedChars text * cfg.tcharSize ≠ MAX_OUTPUT_TEXT_BYTES) :
    (cfg.storedChars text + 1) * cfg.tcharSize ≤ MAX_OUTPUT_TEXT_BYTES := by
  have hLe := cfg.storedChars_size text
  unfold MAX_OUTPUT_TEXT_BYTES at *
  rcases cfg.tcharSize_cases with hSize | hSize
  · rw [hSize] at hLe hRoom ⊢
    omega
  · rw [hSize] at hLe hRoom ⊢
    omega

/-- The copied bytes are those of the stored characters. -/
theorem Setting.textBytes_take (cfg : Setting) (text : TString) :
    (cfg.textBytes text).take (storedLength cfg MAX_OUTPUT_TEXT_BYTES text) =
      cfg.textBytes (text.take (cfg.storedChars text)) := by
  rw [cfg.storedChars_mul]
  exact Memory.take_flatMap_enc cfg.length_tcharBytes text _

theorem Setting.length_textBytes (cfg : Setting) (text : TString) :
    (cfg.textBytes text).length = text.length * cfg.tcharSize :=
  Memory.length_flatMap_enc cfg.length_tcharBytes text

theorem Setting.length_textBytes_stored (cfg : Setting) (text : TString) :
    (cfg.textBytes (text.take (cfg.storedChars text))).length =
      cfg.storedChars text * cfg.tcharSize := by
  rw [cfg.length_textBytes, List.length_take, Nat.min_eq_left (cfg.storedChars_le text)]

-- ---------------------------------------------------------------------------
-- Assignments
-- ---------------------------------------------------------------------------

/-- What `Parameter::bind` makes of a `DT_TEXT` parameter. -/
structure World.TextParam (w : World) (p : Nat) : Prop where
  type   : (w.params p).m_paramType = .text
  size   : (w.params p).m_size = MAX_OUTPUT_TEXT_BYTES
  buffer : ∃ buf, (w.params p).m_fetchBuffer = some buf

/-- The stores of `operator= (EpTString)`: the copy and the terminator. -/
def Parameter.textStores (cfg : Setting) (param : Parameter) (text : TString) :
    List (Nat × List Nat) :=
  if text.length = 0 then []
  else
    let dataLen := storedLength cfg param.m_size text
    [(0, (cfg.textBytes text).take dataLen),
      (dataLen / cfg.tcharSize * cfg.tcharSize, cfg.tcharBytes 0)]

/-- A buffer after some stores. -/
def applyStores (stores : List (Nat × List Nat)) (buf : Nat → Nat) : Nat → Nat :=
  stores.foldl (fun b store => writeBytes b store.1 store.2) buf

/-- A `DT_TEXT` parameter after `operator= (EpTString)`. -/
def Parameter.assigned (cfg : Setting) (text : TString) (param : Parameter) : Parameter :=
  { param with
    m_fetchBuffer := param.m_fetchBuffer.map (applyStores (textStores cfg param text))
    m_dataLen :=
      if text.length = 0 then param.m_dataLen
      else (storedLength cfg param.m_size text + cfg.tcharSize) % 2 ^ 16
    m_indicator := if text.length = 0 then ORADATA_NULL else ORADATA_OK }

/-- Two changes of one parameter are one. -/
theorem modifyParam_bind (p : Nat) (f g : Parameter → Parameter) :
    (modifyParam p f >>= fun _ => modifyParam p g) = modifyParam p fun param => g (f param) := by
  funext w
  change EStateM.Result.ok _ _ = EStateM.Result.ok _ _
  simp only [Function.update_self, Function.update_idem]

/-- An assignment as one change of the parameter. -/
theorem assignText_eq {w : World} {p : Nat} (hText : (w.params p).m_paramType = .text)
    (text : TString) :
    assignText p text w = .ok ⟨⟩
      { w with params := Function.update w.params p (assigned w.cfg text (w.params p)) } := by
  unfold assignText
  change EStateM.bind _ _ w = _
  simp only [EStateM.bind, get, getThe, MonadStateOf.get, EStateM.get, hText, if_true]
  by_cases hEmpty : text.length = 0
  · have hSame : assigned w.cfg text (w.params p) =
        { w.params p with m_indicator := ORADATA_NULL } := by
      unfold assigned textStores
      simp only [hEmpty, if_true]
      cases (w.params p).m_fetchBuffer <;> rfl
    rw [if_pos hEmpty, hSame]
    rfl
  · have hStored : assigned w.cfg text (w.params p) =
        { write (storedLength w.cfg (w.params p).m_size text / w.cfg.tcharSize * w.cfg.tcharSize)
            (w.cfg.tcharBytes 0)
            (write 0 ((w.cfg.textBytes text).take (storedLength w.cfg (w.params p).m_size text))
              (w.params p)) with
          m_dataLen := (storedLength w.cfg (w.params p).m_size text + w.cfg.tcharSize) % 2 ^ 16
          m_indicator := ORADATA_OK } := by
      unfold assigned textStores write
      simp only [hEmpty, if_false]
      cases (w.params p).m_fetchBuffer <;> rfl
    rw [if_neg hEmpty, modifyParam_bind, modifyParam_bind, hStored]
    rfl

/-- The state of a sequence of assignments to `p`. -/
def Parameter.assignStep (p : Nat) (w : World) (text : TString) : World :=
  exec (assignText p text) w

theorem assignStep_eq {w : World} {p : Nat} (hText : (w.params p).m_paramType = .text)
    (text : TString) : assignStep p w text =
      { w with params := Function.update w.params p (assigned w.cfg text (w.params p)) } := by
  unfold assignStep exec
  rw [assignText_eq hText]

/-- The parameter stays a `DT_TEXT` parameter of its size. -/
theorem World.TextParam.assignStep {w : World} {p : Nat} (hT : w.TextParam p) (text : TString) :
    (Parameter.assignStep p w text).TextParam p := by
  obtain ⟨buf, hBuf⟩ := hT.buffer
  rw [assignStep_eq hT.type]
  constructor
  · show (Function.update w.params p _ p).m_paramType = _
    rw [Function.update_self]
    exact hT.type
  · show (Function.update w.params p _ p).m_size = _
    rw [Function.update_self]
    exact hT.size
  · refine ⟨applyStores (textStores w.cfg (w.params p) text) buf, ?_⟩
    show (Function.update w.params p _ p).m_fetchBuffer = _
    rw [Function.update_self]
    show (w.params p).m_fetchBuffer.map _ = _
    rw [hBuf]
    rfl

/-- The buffer holds the first `k` characters of a text and a terminator, and
`m_dataLen` counts just these. -/
structure Parameter.TextStored (cfg : Setting) (text : TString) (param : Parameter) : Prop where
  fits   : param.m_dataLen ≤ param.m_size
  stored : ∃ k ≤ text.length, ∃ buf, param.m_fetchBuffer = some buf ∧
    param.m_dataLen = (k + 1) * cfg.tcharSize ∧
    Memory.Holds buf 0 (cfg.textBytes (text.take k)) ∧
    Memory.Holds buf (k * cfg.tcharSize) (cfg.tcharBytes 0)

/-- What is asked of an assignment of `text` to `p`: the buffer changes by
stores below `m_size` only, and a text that is not empty is stored with its
terminator. -/
structure Parameter.StaysInside (p : Nat) (w : World) (text : TString) : Prop where
  writes : ((assignStep p w text).params p).m_fetchBuffer =
    (w.params p).m_fetchBuffer.map (applyStores (textStores w.cfg (w.params p) text))
  inside : ∀ store ∈ textStores w.cfg (w.params p) text, ∀ off,
    store.1 ≤ off → off < store.1 + store.2.length → off < (w.params p).m_size
  stored : text.length ≠ 0 → TextStored w.cfg text ((assignStep p w text).params p)

/-- The stores of a text, by characters. -/
theorem textStores_eq {cfg : Setting} {param : Parameter} {text : TString}
    (hSize : param.m_size = MAX_OUTPUT_TEXT_BYTES) (hText : text.length ≠ 0) :
    textStores cfg param text =
      [(0, cfg.textBytes (text.take (cfg.storedChars text))),
        (cfg.storedChars text * cfg.tcharSize, cfg.tcharBytes 0)] := by
  unfold textStores
  rw [if_neg hText, hSize]
  dsimp only
  rw [cfg.textBytes_take, cfg.storedChars_mul,
    Nat.mul_div_cancel _ cfg.tcharSize_pos]

/-- The stored characters and their terminator, in the buffer. -/
theorem applyStores_holds (cfg : Setting) {param : Parameter} {text : TString}
    (hSize : param.m_size = MAX_OUTPUT_TEXT_BYTES) (hText : text.length ≠ 0) (buf : Nat → Nat) :
    Memory.Holds (applyStores (textStores cfg param text) buf) 0
        (cfg.textBytes (text.take (cfg.storedChars text))) ∧
      Memory.Holds (applyStores (textStores cfg param text) buf)
        (cfg.storedChars text * cfg.tcharSize) (cfg.tcharBytes 0) := by
  rw [textStores_eq hSize hText]
  unfold applyStores
  simp only [List.foldl_cons, List.foldl_nil, writeBytes_eq_store]
  constructor
  · refine (Memory.holds_store _ _ _).store (Or.inl ?_)
    rw [cfg.length_textBytes_stored, Nat.zero_add]
  · exact Memory.holds_store _ _ _

/-- Both stores stay inside the buffer exactly when the copy does not fill it. -/
theorem textStores_inside_iff {cfg : Setting} {param : Parameter} {text : TString}
    (hSize : param.m_size = MAX_OUTPUT_TEXT_BYTES) (hText : text.length ≠ 0) :
    (∀ store ∈ textStores cfg param text, ∀ off,
      store.1 ≤ off → off < store.1 + store.2.length → off < param.m_size) ↔
      cfg.storedChars text * cfg.tcharSize ≠ MAX_OUTPUT_TEXT_BYTES := by
  have hPos := cfg.tcharSize_pos
  rw [textStores_eq hSize hText, hSize]
  simp only [List.forall_mem_cons, List.not_mem_nil, false_implies, implies_true, and_true,
    cfg.length_textBytes_stored, cfg.length_tcharBytes]
  constructor
  · intro h hFull
    have hEnd := h.2 (cfg.storedChars text * cfg.tcharSize) (Nat.le_refl _) (by omega)
    omega
  · intro hRoom
    have hLe := Setting.storedChars_room hRoom
    rw [Nat.succ_mul] at hLe
    exact ⟨fun off _ hOff => by omega, fun off _ hOff => by omega⟩

-- ---------------------------------------------------------------------------
-- Staying inside the buffer
-- ---------------------------------------------------------------------------

section Inside

variable {w : World} {p : Nat}

theorem params_assignStep (hT : w.TextParam p) (text : TString) :
    (assignStep p w text).params p = assigned w.cfg text (w.params p) := by
  rw [assignStep_eq hT.type]
  exact Function.update_self ..

/-- What is stored when the terminator has room. -/
theorem textStored_assigned (hT : w.TextParam p) {text : TString} (hText : text.length ≠ 0)
    (hRoom : w.cfg.storedChars text * w.cfg.tcharSize ≠ MAX_OUTPUT_TEXT_BYTES) :
    TextStored w.cfg text (assigned w.cfg text (w.params p)) := by
  obtain ⟨buf, hBuf⟩ := hT.buffer
  have hLe := Setting.storedChars_room hRoom
  have hLen : (assigned w.cfg text (w.params p)).m_dataLen =
      (w.cfg.storedChars text + 1) * w.cfg.tcharSize := by
    show (if text.length = 0 then _ else _) = _
    rw [if_neg hText, hT.size, w.cfg.storedChars_mul, ← Nat.succ_mul]
    exact Nat.mod_eq_of_lt (Nat.lt_of_le_of_lt hLe (by decide))
  constructor
  · show _ ≤ (w.params p).m_size
    rw [hLen, hT.size]
    exact hLe
  · refine ⟨w.cfg.storedChars text, w.cfg.storedChars_le text,
      applyStores (textStores w.cfg (w.params p) text) buf, ?_, hLen,
      applyStores_holds w.cfg hT.size hText buf⟩
    show (w.params p).m_fetchBuffer.map _ = _
    rw [hBuf]
    rfl

/-- One assignment. -/
theorem staysInside_iff (hT : w.TextParam p) (text : TString) :
    StaysInside p w text ↔ text.length * w.cfg.tcharSize % 2 ^ 16 ≠ MAX_OUTPUT_TEXT_BYTES := by
  by_cases hText : text.length = 0
  · have hEmpty : textStores w.cfg (w.params p) text = [] := if_pos hText
    constructor
    · intro _ hFull
      rw [hText, Nat.zero_mul] at hFull
      exact absurd hFull (by decide)
    · intro _
      refine ⟨by rw [params_assignStep hT]; rfl, ?_, fun h => absurd hText h⟩
      rw [hEmpty]
      intro store hMem
      exact absurd hMem (List.not_mem_nil)
  · rw [Ne, ← w.cfg.storedChars_full_iff]
    constructor
    · exact fun h => (textStores_inside_iff hT.size hText).mp h.inside
    · intro hRoom
      refine ⟨by rw [params_assignStep hT]; rfl, (textStores_inside_iff hT.size hText).mpr hRoom,
        fun _ => ?_⟩
      rw [params_assignStep hT]
      exact textStored_assigned hT hText hRoom

/-- **Assigning text** to a parameter stays inside its buffer, over a whole
sequence of assignments, exactly when the length in bytes of no text, narrowed
to 16 bits, is the size of the buffer. -/
theorem text_assignments_inside_iff (hT : w.TextParam p) (texts : List TString) :
    Runs.AllSteps (assignStep p) (StaysInside p) w texts ↔
      ∀ text ∈ texts, text.length * w.cfg.tcharSize % 2 ^ 16 ≠ MAX_OUTPUT_TEXT_BYTES := by
  induction texts generalizing w with
  | nil => exact ⟨fun _ _ hMem => absurd hMem List.not_mem_nil, fun _ => trivial⟩
  | cons text texts ih =>
    have hCfg : (assignStep p w text).cfg = w.cfg := by
      rw [assignStep_eq hT.type]
    rw [Runs.AllSteps, ih (hT.assignStep text), hCfg, staysInside_iff hT, List.forall_mem_cons]

/-- **A `Bind` of a text** that returns leaves such a parameter. -/
theorem bind_textParam {s : Nat} {name : TString} {type : DataType} {w' : World}
    (hCursors : ∀ p, (w.params p).m_resultSet = none)
    (hBind : Statement.bind s name type w = .ok p w')
    (hType : (w'.params p).m_paramType = .text) : w'.TextParam p := by
  obtain ⟨-, -, w₁, param, t, hTyped, hA, rfl⟩ :=
    of_wp_ok (wp_statementBind s name type (cursorsBelow_of_none hCursors _)) hBind
  have hParam : (w₁.withParam s p name).params p = param := hA.param
  rw [hParam, hTyped.type] at hType
  obtain ⟨hSize, hBuffer⟩ := hTyped.buffer hType
  constructor
  · rw [hParam, hTyped.type, hType]
  · rw [hParam, hSize]
  · rw [hParam]
    exact hBuffer

end Inside

/-- A statement of either build with a text parameter: the numbers 0 and 2. -/
def textBound (unicode : Bool) : World :=
  exec (Statement.bind 0 (tstr "sName") .unknown)
    (exec (Connection.prepare []) (.start { Setting.plain with unicode := unicode }))

theorem textParam_textBound (unicode : Bool) : (textBound unicode).TextParam 2 := by
  have hBind : Statement.bind 0 (tstr "sName") .unknown
      (exec (Connection.prepare []) (.start { Setting.plain with unicode := unicode })) =
        .ok 2 (textBound unicode) :=
    eq_ok_of_result (by cases unicode <;> decide +kernel)
  exact bind_textParam (fun _ => rfl) hBind (by cases unicode <;> decide +kernel)

theorem cfg_textBound (unicode : Bool) :
    (textBound unicode).cfg = { Setting.plain with unicode := unicode } := by
  cases unicode <;> rfl

/-- A short text, the empty one, and one that is cut. -/
theorem text_assignments_inside_three :
    Runs.AllSteps (assignStep 2) (StaysInside 2) (textBound true)
      [tstr "Ann", [], List.replicate 5000 120] := by
  refine (text_assignments_inside_iff (textParam_textBound true) _).mpr ?_
  rw [cfg_textBound]
  simp only [List.forall_mem_cons, List.length_replicate]
  exact ⟨by decide, by decide, by decide, fun _ hMem => absurd hMem List.not_mem_nil⟩

/-- 4096 characters in the ANSI build, 2048 in the Unicode build: the
terminator lands behind the buffer. -/
theorem text_assignment_overruns :
    ¬ Runs.AllSteps (assignStep 2) (StaysInside 2) (textBound false)
        [List.replicate 4096 120] ∧
      ¬ Runs.AllSteps (assignStep 2) (StaysInside 2) (textBound true)
        [List.replicate 2048 120] := by
  constructor
  · intro hAll
    have hLength := (staysInside_iff (textParam_textBound false) _).mp hAll.1
    rw [cfg_textBound, List.length_replicate] at hLength
    exact absurd rfl hLength
  · intro hAll
    have hLength := (staysInside_iff (textParam_textBound true) _).mp hAll.1
    rw [cfg_textBound, List.length_replicate] at hLength
    exact absurd rfl hLength

-- ---------------------------------------------------------------------------
-- Reading back
-- ---------------------------------------------------------------------------

/-- The characters that fit with their terminator. -/
def Setting.capacity (cfg : Setting) : Nat := MAX_OUTPUT_TEXT_BYTES / cfg.tcharSize - 1

/-- `p = text; p.ToString ()` returns the text, cut at the capacity. -/
def Parameter.ReadsBack (p : Nat) (w : World) (text : TString) : Prop :=
  result? (do assignText p text; Parameter.toString p) w =
    some (text.take (min text.length w.cfg.capacity))

/-- The texts that are stored as far as they fit: those that fit whole, and of
the longer ones those whose length in bytes, narrowed to 16 bits, is cut at the
capacity or is the capacity by itself. In the ANSI build the cut is one
character short of the capacity. -/
def Setting.StoredFull (cfg : Setting) (text : TString) : Prop :=
  text.length ≤ cfg.capacity ∨
    if cfg.unicode then
      MAX_OUTPUT_TEXT_BYTES < text.length * 2 % 2 ^ 16 ∨
        text.length * 2 % 2 ^ 16 = MAX_OUTPUT_TEXT_BYTES - 2
    else text.length % 2 ^ 16 = MAX_OUTPUT_TEXT_BYTES - 1

theorem Setting.storedChars_eq_iff (cfg : Setting) (text : TString) :
    cfg.storedChars text = min text.length cfg.capacity ↔ cfg.StoredFull text := by
  unfold Setting.StoredFull Setting.capacity Setting.storedChars storedLength Setting.tcharSize
    MAX_OUTPUT_TEXT_BYTES
  cases cfg.unicode with
  | true =>
    simp only [if_true]
    split <;> omega
  | false =>
    simp only [Bool.false_eq_true, if_false]
    split <;> omega

section ReadBack

variable {w : World} {p : Nat} {text : TString}

/-- A text with its terminator behind it is read whole. -/
theorem Setting.cstring_holds {cfg : Setting} {buf : Nat → Nat} {n : Nat}
    (hChars : cfg.IsText text) (hText : Memory.Holds buf 0 (cfg.textBytes text))
    (hEnd : Memory.Holds buf (text.length * cfg.tcharSize) (cfg.tcharBytes 0))
    (hRoom : text.length < n) : Memory.cstring (cfg.tcharAt buf) 0 n = text := by
  refine Memory.cstring_eq (fun i ch hi => ?_) ?_ (fun hMem => (hChars 0 hMem).1 rfl) hRoom
  · have hUnit := Memory.holds_flatMap cfg.length_tcharBytes hText hi
    rw [Nat.zero_add] at hUnit
    exact tcharAt_holds hUnit (hChars ch (List.mem_of_getElem? hi)).2
  · exact tcharAt_holds hEnd (Nat.two_pow_pos _)

/-- What `ToString` finds after an assignment: the stored characters. -/
theorem cstring_assigned (hT : w.TextParam p) (hText : text.length ≠ 0)
    (hChars : w.cfg.IsText text) (buf : Nat → Nat) :
    Memory.cstring (w.cfg.tcharAt (applyStores (textStores w.cfg (w.params p) text) buf)) 0
        ((w.params p).m_size / w.cfg.tcharSize + 1) = text.take (w.cfg.storedChars text) := by
  obtain ⟨hCopy, hEnd⟩ := applyStores_holds w.cfg hT.size hText buf
  have hLen : (text.take (w.cfg.storedChars text)).length = w.cfg.storedChars text := by
    rw [List.length_take, Nat.min_eq_left (w.cfg.storedChars_le text)]
  rw [← hLen] at hEnd
  refine w.cfg.cstring_holds (fun ch hMem => hChars ch (List.mem_of_mem_take hMem)) hCopy hEnd ?_
  rw [hLen, hT.size]
  exact Nat.lt_succ_of_le ((Nat.le_div_iff_mul_le w.cfg.tcharSize_pos).mpr
    (w.cfg.storedChars_size text))

/-- A text is read back as far as it was stored. -/
theorem result_assignText_toString (hT : w.TextParam p) (hText : text.length ≠ 0)
    (hChars : w.cfg.IsText text) :
    result? (do assignText p text; Parameter.toString p) w =
      some (text.take (w.cfg.storedChars text)) := by
  obtain ⟨buf, hBuf⟩ := hT.buffer
  have hAssigned := params_assignStep hT text
  have hCfg : (assignStep p w text).cfg = w.cfg := by
    rw [assignStep_eq hT.type]
  have hBuffer : (assigned w.cfg text (w.params p)).m_fetchBuffer =
      some (applyStores (textStores w.cfg (w.params p) text) buf) := by
    show (w.params p).m_fetchBuffer.map _ = _
    rw [hBuf]
    rfl
  have hIndicator : (assigned w.cfg text (w.params p)).m_indicator ≠ ORADATA_NULL := by
    show (if text.length = 0 then ORADATA_NULL else ORADATA_OK) ≠ _
    rw [if_neg hText]
    decide
  have hRead : wp (Parameter.toString p) (fun read _ => read = text.take (w.cfg.storedChars text))
      (fun _ _ => False) (assignStep p w text) := by
    rw [Parameter.toString, wp_bind, wp_get, hAssigned, hCfg]
    dsimp only
    rw [wp_ite, if_pos ⟨hT.type, hIndicator⟩, wp_pure, hBuffer]
    exact cstring_assigned hT hText hChars buf
  apply result_eq_of_wp
  rw [wp_bind, wp_ok (assignText_eq hT.type text), ← assignStep_eq hT.type]
  exact hRead

theorem readsBack_iff (hT : w.TextParam p) (hText : text.length ≠ 0)
    (hChars : w.cfg.IsText text) : ReadsBack p w text ↔ w.cfg.StoredFull text := by
  have hLe := w.cfg.storedChars_le text
  unfold ReadsBack
  rw [result_assignText_toString hT hText hChars, ← w.cfg.storedChars_eq_iff]
  constructor
  · intro hEq
    have hLength := congrArg List.length (Option.some.inj hEq)
    rw [List.length_take, List.length_take] at hLength
    omega
  · intro hEq
    rw [hEq]

theorem dataLen_assignStep (hT : w.TextParam p) (hText : text.length ≠ 0)
    (hFull : w.cfg.StoredFull text) : ((assignStep p w text).params p).m_dataLen =
      (min text.length w.cfg.capacity + 1) * w.cfg.tcharSize := by
  have hStored := (w.cfg.storedChars_eq_iff text).mpr hFull
  have hRoom : (min text.length w.cfg.capacity + 1) * w.cfg.tcharSize ≤ MAX_OUTPUT_TEXT_BYTES := by
    unfold Setting.capacity MAX_OUTPUT_TEXT_BYTES
    rcases w.cfg.tcharSize_cases with hSize | hSize
    · rw [hSize]
      omega
    · rw [hSize]
      omega
  rw [params_assignStep hT]
  show (if text.length = 0 then _ else _) = _
  rw [if_neg hText, hT.size, w.cfg.storedChars_mul, hStored, ← Nat.succ_mul]
  exact Nat.mod_eq_of_lt (Nat.lt_of_le_of_lt hRoom (by decide))

/-- **Text written to a parameter** reads back, cut at the capacity, exactly
when it is stored as far as it fits; and then a longer one is not stored
shorter. -/
theorem text_reads_back_iff (hT : w.TextParam p) (hText : text.length ≠ 0)
    (hChars : w.cfg.IsText text) :
    (ReadsBack p w text ↔ w.cfg.StoredFull text) ∧
      ∀ longer : TString, text.length ≤ longer.length → w.cfg.StoredFull text →
        w.cfg.StoredFull longer →
        ((assignStep p w text).params p).m_dataLen ≤
          ((assignStep p w longer).params p).m_dataLen := by
  refine ⟨readsBack_iff hT hText hChars, fun longer hLonger hFull hFull' => ?_⟩
  rw [dataLen_assignStep hT hText hFull, dataLen_assignStep hT (by omega) hFull']
  exact Nat.mul_le_mul_right _ (by omega)

end ReadBack

theorem isText_replicate (cfg : Setting) (n : Nat) : cfg.IsText (List.replicate n 120) := by
  intro ch hMem
  rw [List.eq_of_mem_replicate hMem]
  rcases cfg.tcharSize_cases with hSize | hSize
  · rw [hSize]
    decide
  · rw [hSize]
    decide

/-- A text longer than the buffer in the Unicode build. -/
theorem text_reads_back_cut : ReadsBack 2 (textBound true) (List.replicate 5000 120) := by
  refine (text_reads_back_iff (textParam_textBound true) ?_ (isText_replicate _ _)).1.mpr ?_
  · rw [List.length_replicate]
    decide
  · rw [cfg_textBound]
    refine Or.inr (Or.inl ?_)
    rw [List.length_replicate]
    decide

/-- 32768 characters in the Unicode build are stored as the empty text. -/
theorem long_text_lost : ¬ ReadsBack 2 (textBound true) (List.replicate 32768 120) ∧
    result? (do assignText 2 (List.replicate 32768 120); Parameter.toString 2) (textBound true) =
      some [] := by
  have hText : (List.replicate 32768 120).length ≠ 0 := by
    rw [List.length_replicate]
    decide
  constructor
  · intro hBack
    have hFull := (readsBack_iff (textParam_textBound true) hText (isText_replicate _ _)).mp hBack
    rw [cfg_textBound] at hFull
    unfold Setting.StoredFull at hFull
    simp only [List.length_replicate] at hFull
    exact absurd hFull (by decide)
  · have hNone : (textBound true).cfg.storedChars (List.replicate 32768 120) = 0 := by
      rw [cfg_textBound]
      unfold Setting.storedChars storedLength
      rw [List.length_replicate]
      decide
    have hRead := result_assignText_toString (textParam_textBound true) hText (isText_replicate _ _)
    rw [hNone] at hRead
    exact hRead

end Epol
