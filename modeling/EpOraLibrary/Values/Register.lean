import EpOraLibrary.Lib.Register
import EpOraLibrary.Values.Text

/-!
# EpOraLibrary — a parameter as a typed nullable register

The assignments and `ToNull` write to a `Parameter`, the readers and `IsNull`
look at it. They share one buffer, `m_indicator` and `m_dataLen`.

* `Content`, `Content.bytes` — the values, and the bytes they stand in the
  buffer by.
* `Parameter.Holding` — a parameter that holds a value of its type, or NULL.
* `wp_assignment`, `ReadsOut` — what an assignment and a reader do; one that
  throws changes none of it.
* `holdingAfter_step` — **one call** acts on it as on a nullable register.
* `register_laws` — **a bound parameter is a typed nullable register**, after
  any sequence of calls.
-/

namespace Epol

open Ledger Prog Runs Register

variable {w w' : World} {p : Nat} {cfg : Setting} {t : DataType}

-- ---------------------------------------------------------------------------
-- Values and calls
-- ---------------------------------------------------------------------------

/-- A value that was assigned to a parameter. -/
inductive Content
  | text (text : TString)
  | real (value : Double)
  | int (value : Int)
  | date (dateTime : DateTime)

/-- The type of the parameters that take the value. -/
def Content.type : Content → DataType
  | .text _ => .text
  | .real _ => .number
  | .int _ => .number
  | .date _ => .date

/-- What the value is in the buffer; for a number, what OCI makes of it. -/
def Content.bytes (cfg : Setting) : Content → Except OciResult (List Nat)
  | .text s => .ok (cfg.textBytes s ++ cfg.tcharBytes 0)
  | .real value => cfg.numberFromReal value
  | .int value => cfg.numberFromInt value
  | .date dateTime => .ok dateTime.setOciDate.bytes

/-- The calls made on a parameter. -/
inductive RegisterCall
  | assignText (text : TString)
  | assignReal (value : Double)
  | assignInt (value : Int)
  | assignDate (dateTime : DateTime)
  | toNull
  | isNull
  | toString
  | toDouble
  | toLong
  | toDateTime

def RegisterCall.exec (p : Nat) : RegisterCall → M Unit
  | .assignText text => Parameter.assignText p text
  | .assignReal value => Parameter.assignReal p value
  | .assignInt value => Parameter.assignInt p value
  | .assignDate dateTime => Parameter.assignDateTime p dateTime
  | .toNull => Parameter.toNull p
  | .isNull => do
    let _ ← Parameter.isNull p
    pure ()
  | .toString => do
    let _ ← Parameter.toString p
    pure ()
  | .toDouble => do
    let _ ← Parameter.toDouble p
    pure ()
  | .toLong => do
    let _ ← Parameter.toLong p
    pure ()
  | .toDateTime => do
    let _ ← Parameter.toDateTime p
    pure ()

/-- One call; an exception is caught. -/
def RegisterCall.step (p : Nat) (w : World) (call : RegisterCall) : World :=
  Prog.exec (call.exec p) w

/-- What a call is to write: nothing, NULL or a value. The empty text is NULL. -/
def RegisterCall.assigns : RegisterCall → Option (Option Content)
  | .assignText text => some (if text.length = 0 then none else some (.text text))
  | .assignReal value => some (some (.real value))
  | .assignInt value => some (some (.int value))
  | .assignDate dateTime => some (some (.date dateTime))
  | .toNull => some none
  | _ => none

/-- A parameter of type `t` does not take the value: it is of another type, or
OCI does not convert it. -/
def Content.Rejected (cfg : Setting) (t : DataType) (content : Content) : Prop :=
  t ≠ content.type ∨ ∃ result, content.bytes cfg = .error result

instance (cfg : Setting) (t : DataType) (content : Content) :
    Decidable (content.Rejected cfg t) :=
  match h : content.bytes cfg with
  | .ok _ => decidable_of_iff (t ≠ content.type) ⟨.inl, fun hr => hr.elim id fun ⟨_, he⟩ => by
      rw [h] at he
      cases he⟩
  | .error result => .isTrue (.inr ⟨result, h⟩)

/-- The call as one on a register of type `t`. -/
def RegisterCall.effect (cfg : Setting) (t : DataType) (call : RegisterCall) : Effect Content :=
  match call.assigns with
  | none => .keep
  | some none => .clear
  | some (some content) => if content.Rejected cfg t then .keep else .set content

/-- A text that fits the buffer with its terminator. -/
def Setting.Fits (cfg : Setting) (text : TString) : Prop :=
  cfg.IsText text ∧ (text.length + 1) * cfg.tcharSize ≤ MAX_OUTPUT_TEXT_BYTES

/-- The numbers OCI makes are read back: each conversion from a number is an
encoding into the bytes of an `OCINumber`, and the one to it decodes it. -/
structure Setting.NumberCodec (cfg : Setting) : Prop where
  realSize : ∀ value number, cfg.numberFromReal value = .ok number →
    number.length = sizeofOciNumber
  real     : ∀ value number, cfg.numberFromReal value = .ok number →
    cfg.numberToReal number = .ok value
  intSize  : ∀ value number, cfg.numberFromInt value = .ok number →
    number.length = sizeofOciNumber
  int      : ∀ value number, cfg.numberFromInt value = .ok number →
    cfg.numberToInt number = .ok value

-- ---------------------------------------------------------------------------
-- The representation
-- ---------------------------------------------------------------------------

/-- The bytes of the value stand at the beginning of the buffer. -/
structure Content.Stands (cfg : Setting) (content : Content) (buf : Nat → Nat) : Prop where
  bytes : ∃ bytes, content.bytes cfg = .ok bytes ∧ Memory.Holds buf 0 bytes
  fits  : ∀ text, content = .text text → cfg.Fits text

/-- A parameter of type `t` that holds a value, or NULL. -/
structure Parameter.Holding (cfg : Setting) (t : DataType) (param : Parameter)
    (held : Option Content) : Prop where
  type      : param.m_paramType = t
  size      : t = .text → param.m_size = MAX_OUTPUT_TEXT_BYTES
  indicator : param.m_indicator = ORADATA_NULL ↔ held = none
  buffer    : ∃ buf, param.m_fetchBuffer = some buf ∧
    ∀ content, held = some content → content.type = t ∧ content.Stands cfg buf

theorem oradata_ok_ne_null : ORADATA_OK ≠ ORADATA_NULL := by decide

/-- The parameter after a write of NULL. -/
theorem Parameter.Holding.clear {param : Parameter} {held : Option Content}
    (h : param.Holding cfg t held) :
    Parameter.Holding cfg t { param with m_indicator := ORADATA_NULL } none where
  type := h.type
  size := h.size
  indicator := ⟨fun _ => rfl, fun _ => rfl⟩
  buffer := by
    obtain ⟨buf, hBuf, -⟩ := h.buffer
    exact ⟨buf, hBuf, fun _ hNone => by cases hNone⟩

/-- A `memcpy` of the bytes of a value. -/
theorem Parameter.Holding.store {param : Parameter} {held : Option Content}
    (h : param.Holding cfg t held) {content : Content} {bytes : List Nat}
    (hType : content.type = t) (hBytes : content.bytes cfg = .ok bytes)
    (hFits : ∀ text, content = .text text → cfg.Fits text) :
    Parameter.Holding cfg t { Parameter.write 0 bytes param with m_indicator := ORADATA_OK }
      (some content) where
  type := h.type
  size := h.size
  indicator := ⟨fun hNull => absurd hNull oradata_ok_ne_null, fun hNone => by cases hNone⟩
  buffer := by
    obtain ⟨buf, hBuf, -⟩ := h.buffer
    refine ⟨writeBytes buf 0 bytes, by rw [Parameter.write, hBuf]; rfl, fun content' hSame => ?_⟩
    obtain rfl := Option.some.inj hSame
    rw [writeBytes_eq_store]
    exact ⟨hType, ⟨bytes, hBytes, Memory.holds_store buf 0 bytes⟩, hFits⟩

/-- All of a text that fits is stored. -/
theorem Setting.Fits.storedChars {text : TString} (h : cfg.Fits text) :
    cfg.storedChars text = text.length := by
  have hRoom : text.length + 1 ≤ MAX_OUTPUT_TEXT_BYTES / cfg.tcharSize :=
    (Nat.le_div_iff_mul_le cfg.tcharSize_pos).mpr h.2
  have hFull : text.length ≤ cfg.capacity := Nat.le_sub_one_of_lt hRoom
  rw [(cfg.storedChars_eq_iff text).mpr (.inl hFull), Nat.min_eq_left hFull]

/-- `operator= (EpTString)` of a text that is not empty. -/
theorem Parameter.Holding.assigned {param : Parameter} {held : Option Content} {text : TString}
    (h : param.Holding cfg .text held) (hText : text.length ≠ 0) (hFits : cfg.Fits text) :
    Parameter.Holding cfg .text (Parameter.assigned cfg text param) (some (.text text)) where
  type := h.type
  size := h.size
  indicator := by
    rw [Parameter.assigned]
    simp [hText, oradata_ok_ne_null]
  buffer := by
    obtain ⟨buf, hBuf, -⟩ := h.buffer
    refine ⟨applyStores (Parameter.textStores cfg param text) buf, ?_, fun content hSame => ?_⟩
    · rw [Parameter.assigned, hBuf]
      rfl
    · obtain rfl := Option.some.inj hSame
      obtain ⟨hCopy, hEnd⟩ := applyStores_holds cfg (h.size rfl) hText buf
      rw [hFits.storedChars] at hCopy hEnd
      rw [List.take_length] at hCopy
      refine ⟨rfl, ⟨_, rfl, hCopy.append ?_⟩, fun text' hSame' => ?_⟩
      · rw [Nat.zero_add, cfg.length_textBytes]
        exact hEnd
      · rw [← Content.text.inj hSame']
        exact hFits

-- ---------------------------------------------------------------------------
-- Assignments
-- ---------------------------------------------------------------------------

/-- What is asked of the assignment `m` of a value: it throws exactly when the
value is rejected, and then the parameter is as before. -/
def Assigns (p : Nat) (content : Content) (m : M Unit) (w : World) : Prop :=
  ∀ t held, (w.params p).Holding w.cfg t held →
    wp m
      (fun _ w' => ¬ content.Rejected w.cfg t ∧ w'.cfg = w.cfg ∧
        (w'.params p).Holding w.cfg t (some content))
      (fun _ w' => content.Rejected w.cfg t ∧ w'.cfg = w.cfg ∧ w'.params = w.params) w

/-- A value of the right type that OCI converts is taken. -/
theorem Content.not_rejected {content : Content} {bytes : List Nat} (hType : t = content.type)
    (hBytes : content.bytes cfg = .ok bytes) : ¬ content.Rejected cfg t := by
  rintro (hOther | ⟨result, hError⟩)
  · exact hOther hType
  · rw [hBytes] at hError
    cases hError

theorem assigns_text {text : TString} (hText : text.length ≠ 0) (hFits : w.cfg.Fits text) :
    Assigns p (.text text) (Parameter.assignText p text) w := by
  intro t held hP
  by_cases hType : t = .text
  · subst hType
    rw [wp_ok (assignText_eq hP.type text)]
    refine ⟨Content.not_rejected rfl rfl, rfl, ?_⟩
    simp only [Function.update_self]
    exact hP.assigned hText hFits
  · rw [Parameter.assignText, wp_bind, wp_get]
    dsimp only
    rw [wp_ite, if_neg hText, wp_ite, if_neg (hP.type ▸ hType), wp_throw]
    exact ⟨.inl hType, rfl, rfl⟩

/-- What `operator= (double)` and `operator= (long)` have in common. -/
theorem assigns_number (content : Content) (hNumber : content.type = .number)
    (hFits : ∀ text, content ≠ .text text) :
    Assigns p content (Parameter.assignNumber p (content.bytes w.cfg)) w := by
  intro t held hP
  rw [Parameter.assignNumber, wp_bind, wp_get, wp_ite, hP.type]
  split
  · rename_i hType
    rw [wp_bind, convert, wp_bind, wp_get, wp_bind, wp_pass]
    cases hBytes : content.bytes w.cfg with
    | ok number =>
      rw [wp_pure, wp_bind, wp_modifyParam, wp_modifyParam]
      refine ⟨Content.not_rejected (hType.trans hNumber.symm) hBytes, rfl, ?_⟩
      simp only [Function.update_self]
      exact hP.store (hNumber.trans hType.symm) hBytes fun text hSame => absurd hSame (hFits text)
    | error result =>
      exact wp_throwOnError fun _ _ => ⟨.inr ⟨result, hBytes⟩, rfl, rfl⟩
  · rename_i hType
    rw [wp_throw]
    exact ⟨.inl fun hSame => hType (hSame.trans hNumber), rfl, rfl⟩

theorem assigns_real (value : Double) :
    Assigns p (.real value) (Parameter.assignReal p value) w :=
  assigns_number (.real value) rfl fun _ hText => by cases hText

theorem assigns_int (value : Int) : Assigns p (.int value) (Parameter.assignInt p value) w :=
  assigns_number (.int value) rfl fun _ hText => by cases hText

theorem assigns_date (dateTime : DateTime) :
    Assigns p (.date dateTime) (Parameter.assignDateTime p dateTime) w := by
  intro t held hP
  rw [Parameter.assignDateTime, Parameter.assignDate, wp_bind, wp_get, wp_ite, hP.type]
  split
  · rename_i hType
    rw [wp_bind, wp_modifyParam, wp_modifyParam]
    refine ⟨Content.not_rejected hType rfl, rfl, ?_⟩
    simp only [Function.update_self]
    exact hP.store hType.symm rfl fun _ hText => by cases hText
  · rename_i hType
    rw [wp_throw]
    exact ⟨.inl hType, rfl, rfl⟩

-- ---------------------------------------------------------------------------
-- Readers
-- ---------------------------------------------------------------------------

/-- What the readers make of a value: of one of their own kind that value, and
of a number of the other kind what OCI converts it to. -/
def Content.asText : Content → Option (Except OciResult TString)
  | .text s => some (.ok s)
  | _ => none

def Content.asReal (cfg : Setting) : Content → Option (Except OciResult Double)
  | .real value => some (.ok value)
  | .int value => some (cfg.numberFromInt value >>= cfg.numberToReal)
  | _ => none

def Content.asInt (cfg : Setting) : Content → Option (Except OciResult Int)
  | .real value => some (cfg.numberFromReal value >>= cfg.numberToInt)
  | .int value => some (.ok value)
  | _ => none

def Content.asDate : Content → Option (Except OciResult (Option DateTime))
  | .date dateTime => some (.ok (some dateTime))
  | _ => none

/-- The settings and the parameters are the same. -/
def SameParams (w w' : World) : Prop := w'.cfg = w.cfg ∧ w'.params = w.params

theorem frame_sameParams : Frame SameParams where
  refl _ := ⟨rfl, rfl⟩
  trans h h' := ⟨h'.1.trans h.1, h'.2.trans h.2⟩

/-- What is asked of the reader `m` for parameters of the type `kind`: it
changes no parameter, it throws EC_BAD_OUTPUT_TYPE where the parameter is NULL or
of another type, and otherwise it ends as `own` says. -/
def ReadsOut {α : Type} (kind t : DataType) (held : Option Content)
    (own : Content → Option (Except OciResult α)) (m : M α) (w : World) : Prop :=
  wp m
    (fun a w' => SameParams w w' ∧ t = kind ∧ ∃ content, held = some content ∧
      own content = some (.ok a))
    (fun e w' => SameParams w w' ∧
      if t ≠ kind ∨ held = none then e = .oralib .badOutputType none
      else ∃ content result, held = some content ∧ own content = some (.error result) ∧
        e = .oracle result none) w

/-- What is read from the buffer, by the same outcome. -/
def ReadsBuffer {α : Type} (outcome : Except OciResult α) (m : M α) (w : World) : Prop :=
  wp m (fun a w' => SameParams w w' ∧ outcome = .ok a)
    (fun e w' => SameParams w w' ∧ ∃ result, outcome = .error result ∧ e = .oracle result none) w

section Readers

variable {α : Type} {held : Option Content} {kind : DataType}
  {own : Content → Option (Except OciResult α)}

/-- The check all readers begin with. -/
theorem Parameter.Holding.readable_iff {param : Parameter} (hP : param.Holding cfg t held) :
    param.m_paramType = kind ∧ param.m_indicator ≠ ORADATA_NULL ↔ ¬ (t ≠ kind ∨ held = none) := by
  rw [hP.type, Ne, hP.indicator]
  tauto

/-- A reader that makes this check and then reads the buffer. -/
theorem readsOut_of_check {m : M α} (read : (Nat → Nat) → M α)
    (hP : (w.params p).Holding w.cfg t held)
    (hCheck : ∀ buf, (w.params p).m_fetchBuffer = some buf → ∀ Q E, wp m Q E w =
      if (w.params p).m_paramType = kind ∧ (w.params p).m_indicator ≠ ORADATA_NULL then
        wp (read buf) Q E w
      else E (.oralib .badOutputType none) w)
    (hRead : ∀ content buf, t = kind → content.type = kind → content.Stands w.cfg buf →
      ∃ outcome, own content = some outcome ∧ ReadsBuffer outcome (read buf) w) :
    ReadsOut kind t held own m w := by
  obtain ⟨buf, hBuf, hStands⟩ := hP.buffer
  rw [ReadsOut, hCheck buf hBuf]
  by_cases hBad : t ≠ kind ∨ held = none
  · rw [if_neg fun hOk => hP.readable_iff.mp hOk hBad]
    refine ⟨frame_sameParams.refl w, ?_⟩
    rw [if_pos hBad]
  · rw [if_pos (hP.readable_iff.mpr hBad)]
    obtain ⟨hKind, hHeld⟩ := not_or.mp hBad
    have hKind : t = kind := not_not.mp hKind
    obtain ⟨content, rfl⟩ := Option.ne_none_iff_exists'.mp hHeld
    obtain ⟨hType, hStands⟩ := hStands content rfl
    obtain ⟨outcome, hOwn, hReads⟩ := hRead content buf hKind (hType.trans hKind) hStands
    refine wp_mono hReads ?_ ?_
    · rintro a w' ⟨hSame, hOk⟩
      exact ⟨hSame, hKind, content, rfl, by rw [hOwn, hOk]⟩
    · rintro e w' ⟨hSame, result, hError, he⟩
      refine ⟨hSame, ?_⟩
      rw [if_neg hBad]
      exact ⟨content, result, rfl, by rw [hOwn, hError], he⟩

/-- The readers that share `Parameter.output`. -/
theorem readsOut_output {read : (Nat → Nat) → M α} (hP : (w.params p).Holding w.cfg t held)
    (hRead : ∀ content buf, t = kind → content.type = kind → content.Stands w.cfg buf →
      ∃ outcome, own content = some outcome ∧ ReadsBuffer outcome (read buf) w) :
    ReadsOut kind t held own (Parameter.output kind p read) w := by
  refine readsOut_of_check read hP (fun buf hBuf Q E => ?_) hRead
  rw [Parameter.output, wp_bind, wp_get]
  dsimp only
  rw [wp_ite, wp_throw, hBuf, Option.getD_some]

theorem readsBuffer_pure (a : α) (w : World) : ReadsBuffer (.ok a) (pure a) w :=
  ⟨frame_sameParams.refl w, rfl⟩

/-- A conversion ends as OCI says. -/
theorem readsBuffer_convert (f : Except OciResult α) (w : World) :
    ReadsBuffer f (convert f) w := by
  rw [ReadsBuffer, convert, wp_bind, wp_get, wp_bind, wp_pass]
  cases f with
  | ok a => exact ⟨⟨rfl, rfl⟩, rfl⟩
  | error result => exact wp_throwOnError fun _ _ => ⟨⟨rfl, rfl⟩, result, rfl, rfl⟩

/-- A text is read whole. -/
theorem cstring_stands {text : TString} {buf : Nat → Nat}
    (hStands : (Content.text text).Stands cfg buf) :
    Memory.cstring (cfg.tcharAt buf) 0 (MAX_OUTPUT_TEXT_BYTES / cfg.tcharSize + 1) = text := by
  obtain ⟨⟨bytes, hBytes, hHolds⟩, hFits⟩ := hStands
  obtain ⟨hChars, hRoom⟩ := hFits text rfl
  obtain rfl := Except.ok.inj hBytes
  have hEnd := hHolds.right
  rw [Nat.zero_add, cfg.length_textBytes] at hEnd
  refine cfg.cstring_holds hChars hHolds.left hEnd ?_
  have hUnits := (Nat.le_div_iff_mul_le cfg.tcharSize_pos).mpr hRoom
  omega

theorem readsOut_toString (hP : (w.params p).Holding w.cfg t held) :
    ReadsOut .text t held Content.asText (Parameter.toString p) w := by
  refine readsOut_of_check (fun buf => pure (Memory.cstring (w.cfg.tcharAt buf) 0
    ((w.params p).m_size / w.cfg.tcharSize + 1))) hP (fun buf hBuf Q E => ?_)
    (fun content buf hText hType hStands => ?_)
  · rw [Parameter.toString, wp_bind, wp_get]
    dsimp only
    rw [wp_ite, wp_throw, hBuf, Option.elim_some]
  · cases content with
    | text text =>
      refine ⟨.ok text, rfl, ?_⟩
      rw [hP.size hText, cstring_stands hStands]
      exact readsBuffer_pure text w
    | real value => cases hType
    | int value => cases hType
    | date dateTime => cases hType

/-- A number in the buffer is the one OCI made. -/
theorem Content.Stands.numberAt {content : Content} {buf : Nat → Nat}
    (hStands : content.Stands cfg buf)
    (hSize : ∀ number, content.bytes cfg = .ok number → number.length = sizeofOciNumber) :
    content.bytes cfg = .ok (Epol.numberAt buf) := by
  obtain ⟨bytes, hBytes, hHolds⟩ := hStands.bytes
  rw [hBytes, Epol.numberAt, ← hSize bytes hBytes, hHolds.range_map]

theorem readsOut_toDouble (hCodec : w.cfg.NumberCodec) (hP : (w.params p).Holding w.cfg t held) :
    ReadsOut .number t held (Content.asReal w.cfg) (Parameter.toDouble p) w := by
  rw [ReadsOut, Parameter.toDouble, wp_bind, wp_get]
  refine readsOut_output hP fun content buf _ hType hStands =>
    ⟨w.cfg.numberToReal (numberAt buf), ?_, readsBuffer_convert _ w⟩
  cases content with
  | real value =>
    have hNumber := hStands.numberAt (hCodec.realSize value)
    rw [hCodec.real value _ hNumber, Content.asReal]
  | int value =>
    have hNumber : w.cfg.numberFromInt value = _ := hStands.numberAt (hCodec.intSize value)
    rw [Content.asReal, hNumber]
    rfl
  | text text => cases hType
  | date dateTime => cases hType

theorem readsOut_toLong (hCodec : w.cfg.NumberCodec) (hP : (w.params p).Holding w.cfg t held) :
    ReadsOut .number t held (Content.asInt w.cfg) (Parameter.toLong p) w := by
  rw [ReadsOut, Parameter.toLong, wp_bind, wp_get]
  refine readsOut_output hP fun content buf _ hType hStands =>
    ⟨w.cfg.numberToInt (numberAt buf), ?_, readsBuffer_convert _ w⟩
  cases content with
  | real value =>
    have hNumber : w.cfg.numberFromReal value = _ := hStands.numberAt (hCodec.realSize value)
    rw [Content.asInt, hNumber]
    rfl
  | int value =>
    have hNumber := hStands.numberAt (hCodec.intSize value)
    rw [hCodec.int value _ hNumber, Content.asInt]
  | text text => cases hType
  | date dateTime => cases hType

/-- A signed year is read from its two bytes. -/
theorem year_of_bytes {year : Int} (hLow : -2 ^ 15 ≤ year) (hHigh : year < 2 ^ 15) :
    let y := (year % 2 ^ 16).toNat
    (if y % 2 ^ 8 + y / 2 ^ 8 * 2 ^ 8 < 2 ^ 15 then ((y % 2 ^ 8 + y / 2 ^ 8 * 2 ^ 8 : Nat) : Int)
      else ((y % 2 ^ 8 + y / 2 ^ 8 * 2 ^ 8 : Nat) : Int) - 2 ^ 16) = year := by
  intro y
  have hWhole : y % 2 ^ 8 + y / 2 ^ 8 * 2 ^ 8 = y := by omega
  rw [hWhole]
  split <;> omega

/-- A date in the buffer is the one that was set into it. -/
theorem dateAt_stands {dateTime : DateTime} {buf : Nat → Nat}
    (hStands : (Content.date dateTime).Stands cfg buf) : dateAt buf = dateTime.setOciDate := by
  obtain ⟨bytes, hBytes, hHolds⟩ := hStands.bytes
  obtain rfl := Except.ok.inj hBytes
  have hCell : ∀ i x, dateTime.setOciDate.bytes[i]? = some x → buf i = x := by
    intro i x hi
    rw [← hHolds i x hi, Nat.zero_add]
  have hDay := dateTime.m_day.toNat_lt
  have hHour := dateTime.m_hour.toNat_lt
  have hMinute := dateTime.m_minute.toNat_lt
  have hSecond := dateTime.m_second.toNat_lt
  unfold dateAt
  rw [hCell 0 _ rfl, hCell 1 _ rfl, hCell 2 _ rfl, hCell 3 _ rfl, hCell 4 _ rfl, hCell 5 _ rfl,
    hCell 6 _ rfl]
  dsimp only [DateTime.setOciDate]
  rw [year_of_bytes dateTime.m_year.le_toInt dateTime.m_year.toInt_lt,
    Nat.mod_eq_of_lt dateTime.m_month.code_lt, Nat.mod_eq_of_lt hDay, Nat.mod_eq_of_lt hHour,
    Nat.mod_eq_of_lt hMinute, Nat.mod_eq_of_lt hSecond]

theorem readsOut_toDateTime (hP : (w.params p).Holding w.cfg t held) :
    ReadsOut .date t held Content.asDate (Parameter.toDateTime p) w := by
  refine readsOut_output hP fun content buf _ hType hStands => ?_
  cases content with
  | date dateTime =>
    refine ⟨.ok (some dateTime), rfl, ?_⟩
    rw [dateAt_stands hStands, DateTime.ofOciDate_setOciDate]
    exact readsBuffer_pure (some dateTime) w
  | text text => cases hType
  | real value => cases hType
  | int value => cases hType

end Readers

-- ---------------------------------------------------------------------------
-- One call
-- ---------------------------------------------------------------------------

/-- The texts of a call fit the buffer. -/
def RegisterCall.Fits (cfg : Setting) (call : RegisterCall) : Prop :=
  ∀ text, call = .assignText text → cfg.Fits text

/-- The call assigns a value that is rejected. -/
def RegisterCall.Rejected (cfg : Setting) (t : DataType) (call : RegisterCall) : Prop :=
  ∃ content, call.assigns = some (some content) ∧ content.Rejected cfg t

theorem RegisterCall.effect_of_assigns {call : RegisterCall} {content : Content}
    (hAssigns : call.assigns = some (some content)) :
    call.effect cfg t = if content.Rejected cfg t then .keep else .set content := by
  rw [effect, hAssigns]

section Calls

variable {held : Option Content} {call : RegisterCall}

/-- The world after a call that took the register from `held`. -/
def HoldingAfter (p : Nat) (t : DataType) (held : Option Content) (call : RegisterCall)
    (w w' : World) : Prop :=
  w'.cfg = w.cfg ∧
    (w'.params p).Holding w.cfg t (Register.step (RegisterCall.effect w.cfg t) held call)

/-- A call that is to write NULL. -/
theorem wp_clear {m : M Unit} (hP : (w.params p).Holding w.cfg t held)
    (hAssigns : call.assigns = some none)
    (hRun : ∀ Q E, wp m Q E w = wp (Parameter.toNull p) Q E w) :
    wp m (fun _ w' => HoldingAfter p t held call w w' ∧ ¬ call.Rejected w.cfg t)
      (fun _ _ => False) w := by
  rw [hRun, Parameter.toNull, wp_modifyParam]
  refine ⟨⟨rfl, ?_⟩, ?_⟩
  · simp only [Function.update_self]
    rw [Register.step, RegisterCall.effect, hAssigns]
    exact hP.clear
  · rintro ⟨content, hSome, -⟩
    rw [hAssigns] at hSome
    cases hSome

/-- A call that is to write a value. -/
theorem Assigns.wp {content : Content} {m : M Unit} (h : Assigns p content m w)
    (hP : (w.params p).Holding w.cfg t held) (hAssigns : call.assigns = some (some content)) :
    Prog.wp m (fun _ w' => HoldingAfter p t held call w w' ∧ ¬ call.Rejected w.cfg t)
      (fun _ w' => HoldingAfter p t held call w w' ∧ call.Rejected w.cfg t ∧
        w'.params = w.params) w := by
  have hRejected : call.Rejected w.cfg t ↔ content.Rejected w.cfg t := by
    constructor
    · rintro ⟨content', hSome, hRej⟩
      obtain rfl := Option.some.inj (Option.some.inj (hAssigns.symm.trans hSome))
      exact hRej
    · exact fun hRej => ⟨content, hAssigns, hRej⟩
  refine wp_mono (h t held hP) ?_ ?_
  · rintro _ w' ⟨hTaken, hCfg, hP'⟩
    refine ⟨⟨hCfg, ?_⟩, fun hRej => hTaken (hRejected.mp hRej)⟩
    rw [Register.step, RegisterCall.effect_of_assigns hAssigns, if_neg hTaken]
    exact hP'
  · rintro _ w' ⟨hRej, hCfg, hSame⟩
    refine ⟨⟨hCfg, ?_⟩, hRejected.mpr hRej, hSame⟩
    rw [Register.step, RegisterCall.effect_of_assigns hAssigns, if_pos hRej, hSame]
    exact hP

/-- **One assignment**, or `ToNull`. -/
theorem wp_assignment (hP : (w.params p).Holding w.cfg t held) (hFits : call.Fits w.cfg)
    {content : Option Content} (hAssigns : call.assigns = some content) :
    wp (call.exec p) (fun _ w' => HoldingAfter p t held call w w' ∧ ¬ call.Rejected w.cfg t)
      (fun _ w' => HoldingAfter p t held call w w' ∧ call.Rejected w.cfg t ∧
        w'.params = w.params) w := by
  cases call with
  | assignText text =>
    by_cases hText : text.length = 0
    · have hNull : (RegisterCall.assignText text).assigns = some none :=
        congrArg some (if_pos hText)
      refine wp_mono (wp_clear hP hNull fun Q E => ?_) (fun _ _ h => h) (fun _ _ h => h.elim)
      rw [RegisterCall.exec, Parameter.assignText, wp_bind, wp_get]
      dsimp only
      rw [wp_ite, if_pos hText]
      rfl
    · have hValue : (RegisterCall.assignText text).assigns = some (some (.text text)) :=
        congrArg some (if_neg hText)
      exact (assigns_text hText (hFits text rfl)).wp hP hValue
  | assignReal value => exact (assigns_real value).wp hP rfl
  | assignInt value => exact (assigns_int value).wp hP rfl
  | assignDate dateTime => exact (assigns_date dateTime).wp hP rfl
  | toNull =>
    exact wp_mono (wp_clear hP rfl fun _ _ => rfl) (fun _ _ h => h) (fun _ _ h => h.elim)
  | isNull => cases hAssigns
  | toString => cases hAssigns
  | toDouble => cases hAssigns
  | toLong => cases hAssigns
  | toDateTime => cases hAssigns

/-- A call that changes no parameter. -/
theorem SameParams.holdingAfter (h : SameParams w w') (hP : (w.params p).Holding w.cfg t held)
    (hReads : call.assigns = none) : HoldingAfter p t held call w w' := by
  refine ⟨h.1, ?_⟩
  rw [h.2, Register.step, RegisterCall.effect, hReads]
  exact hP

/-- What a reader does to the register. -/
theorem ReadsOut.wp {α : Type} {kind : DataType} {own : Content → Option (Except OciResult α)}
    {m : M α} (h : ReadsOut kind t held own m w) (hP : (w.params p).Holding w.cfg t held)
    (hReads : call.assigns = none) :
    Prog.wp (do
        let _ ← m
        pure ()) (fun _ w' => HoldingAfter p t held call w w')
      (fun _ w' => HoldingAfter p t held call w w') w := by
  rw [wp_bind]
  refine wp_mono h ?_ ?_
  · intro _ w' hRead
    exact hRead.1.holdingAfter hP hReads
  · intro _ w' hThrown
    exact hThrown.1.holdingAfter hP hReads

/-- **One call** acts on a parameter as on a nullable register. -/
theorem holdingAfter_step (hCodec : w.cfg.NumberCodec) (hP : (w.params p).Holding w.cfg t held)
    (hFits : call.Fits w.cfg) : HoldingAfter p t held call w (call.step p w) := by
  have hWrite : ∀ content, call.assigns = some content →
      HoldingAfter p t held call w (call.step p w) := fun content hAssigns =>
    wp_exec.mp (wp_mono (wp_assignment hP hFits hAssigns) (fun _ _ h => h.1) (fun _ _ h => h.1))
  cases call with
  | assignText text => exact hWrite _ rfl
  | assignReal value => exact hWrite _ rfl
  | assignInt value => exact hWrite _ rfl
  | assignDate dateTime => exact hWrite _ rfl
  | toNull => exact hWrite _ rfl
  | isNull => exact (frame_sameParams.refl w).holdingAfter hP rfl
  | toString => exact wp_exec.mp ((readsOut_toString hP).wp hP rfl)
  | toDouble => exact wp_exec.mp ((readsOut_toDouble hCodec hP).wp hP rfl)
  | toLong => exact wp_exec.mp ((readsOut_toLong hCodec hP).wp hP rfl)
  | toDateTime => exact wp_exec.mp ((readsOut_toDateTime hP).wp hP rfl)

end Calls

-- ---------------------------------------------------------------------------
-- Binds
-- ---------------------------------------------------------------------------

section Binds

variable {s : Nat} {name : TString} {type : DataType}

theorem sameParams_ociBindByName (stmt error : Option Nat) (name : TString) (reg : Registration) :
    Respects SameParams (ociBindByName stmt error name reg) := by
  intro w
  simp only [ociBindByName, wp_bind, wp_pass, wp_answer, wp_ite, wp_get, wp_pure]
  split
  · cases stmt with
    | none => exact ⟨rfl, rfl⟩
    | some h => exact ⟨rfl, rfl⟩
  · exact ⟨rfl, rfl⟩

theorem sameParams_setCharset (result : OciResult) :
    Respects SameParams (Parameter.setCharset result) := by
  refine respects_get_bind fun w => ?_
  rw [wp_ite]
  split
  · have hCall : Respects SameParams (ociAttrSet .charsetId 0 (ptr .error w.conn.m_errorHandle)) :=
      fun _ => by exact ⟨rfl, rfl⟩
    exact respects_andThen frame_sameParams result hCall w
  · exact frame_sameParams.refl w

/-- The calls a bind ends with leave the value alone. -/
theorem wp_bindCalls {error stmt : Option Nat} {reg : Registration}
    (hP : (w.params p).Holding w.cfg t none) :
    wp (do
        let result ← ociBindByName stmt error name reg
        let result ← Parameter.setCharset result
        if result ≠ .success then throwOnError result error (some name)
        modifyParam p fun param => { param with m_stmt := some s })
      (fun _ w' => (w'.params p).Holding w'.cfg t none) (fun _ _ => True) w := by
  rw [wp_bind]
  refine wp_mono (sameParams_ociBindByName stmt error name reg w) (fun result w₁ hSame₁ => ?_)
    (fun _ _ _ => trivial)
  rw [wp_bind]
  refine wp_mono (sameParams_setCharset result w₁) (fun result w₂ hSame₂ => ?_)
    (fun _ _ _ => trivial)
  have hSame := frame_sameParams.trans hSame₁ hSame₂
  simp only [wp_bind, wp_ite]
  split
  · exact wp_throwOnError fun _ _ => trivial
  · rw [wp_modifyParam, hSame.1, hSame.2]
    simp only [Function.update_self]
    exact ⟨hP.type, hP.size, hP.indicator, hP.buffer⟩

/-- `bind` of a number, a date or a text leaves the parameter NULL, with its
buffer. -/
theorem wp_bind_holding (hNull : (w.params p).m_indicator = ORADATA_NULL)
    (hSize : (w.params p).m_paramType = .text → (w.params p).m_size = MAX_OUTPUT_TEXT_BYTES) :
    wp (Parameter.bind p s)
      (fun _ w' => (w'.params p).Holding w'.cfg (w.params p).m_paramType none)
      (fun _ _ => True) w := by
  rw [Parameter.bind, wp_bind, wp_get]
  dsimp only
  cases Parameter.initial w.cfg (w.params p).m_paramType with
  | none => trivial
  | some buffer =>
    have hBound : Parameter.Holding w.cfg (w.params p).m_paramType { w.params p with
        m_fetchBuffer := some buffer
        m_dataLen := (w.params p).m_size % 2 ^ 16 } none :=
      ⟨rfl, hSize, ⟨fun _ => rfl, fun _ => hNull⟩, buffer, rfl, fun _ hNone => by cases hNone⟩
    rw [wp_ite]
    split
    · rw [wp_bind, wp_pass, wp_bind, wp_modifyParam]
      refine wp_bindCalls ?_
      simp only [Function.update_self]
      exact hBound
    · rw [wp_bind, wp_modifyParam]
      refine wp_bindCalls ?_
      simp only [Function.update_self]
      exact hBound

/-- `attach` makes a cursor, or a parameter that is NULL. -/
theorem wp_attach_holding {w₀ : World} (h : Attaching w₀ w s p {} id) :
    wp (Parameter.attach p s name type)
      (fun _ w' => (w'.params p).m_paramType = .resultSet ∨
        (w'.params p).Holding w'.cfg (w'.params p).m_paramType none)
      (fun _ _ => True) w := by
  rw [Parameter.attach, wp_bind, wp_modifyParam, h.param, wp_bind]
  refine wp_mono (wp_setupType (h.modifyParam { m_paramName := name } rfl rfl) rfl ⟨rfl, rfl⟩ type)
    ?_ (fun _ _ _ => trivial)
  rintro _ w₁ ⟨param, hSetUp, h₁⟩
  have h₂ := h₁.modifyParam { param with
    m_indicator := ORADATA_NULL
    m_dataLen := 0
    m_fetchBuffer := none
    m_stmt := none
    m_rsHandle := none
    m_resultSet := none } hSetUp.resultSet.symm hSetUp.rsHandle.symm
  rw [wp_bind, wp_modifyParam, h₁.param, wp_bind, wp_get, wp_ite, h₂.param]
  split
  · rename_i hKind
    refine wp_mono (wp_bindResultSet h₂ ⟨hSetUp.name, hSetUp.type, hSetUp.textSize, rfl, rfl⟩ hKind)
      ?_ (fun _ _ _ => trivial)
    rintro _ w' ⟨-, param', hTyped, hA⟩
    refine .inl ?_
    rw [hA.param]
    exact hTyped.type
  · refine wp_mono (wp_bind_holding ?_ ?_) (fun _ w' hP => .inr (hP.type.symm ▸ hP))
      (fun _ _ _ => trivial)
    · rw [h₂.param]
    · rw [h₂.param]
      exact hSetUp.textSize

/-- **A freshly bound parameter is NULL.** -/
theorem bind_holding {w₀ : World} (hBind : Statement.bind s name type w₀ = .ok p w)
    (hType : (w.params p).m_paramType ≠ .resultSet) :
    (w.params p).Holding w.cfg (w.params p).m_paramType none := by
  have hNew : wp (Statement.bind s name type)
      (fun p w' => (w'.params p).m_paramType = .resultSet ∨
        (w'.params p).Holding w'.cfg (w'.params p).m_paramType none) (fun _ _ => True) w₀ := by
    rw [Statement.bind, wp_bind, Parameter.new, wp_bind, wp_acquire, wp_bind, wp_modifyParam,
      wp_bind, constructing, wp_tryCatch]
    refine wp_mono (wp_attach_holding (attaching_start w₀ s)) (fun _ w' hAttached => ?_)
      (fun e w' _ => ?_)
    · rw [wp_pure, wp_bind, wp_get, wp_bind, wp_modifyStmt, wp_pure]
      exact hAttached
    · rw [wp_bind]
      refine wp_mono (wp_trivial _ w') (fun _ w'' _ => ?_) (fun _ _ _ => trivial)
      rw [wp_bind, wp_release, wp_throw]
      trivial
  exact (of_wp_ok hNew hBind).resolve_left hType

end Binds

-- ---------------------------------------------------------------------------
-- Runs
-- ---------------------------------------------------------------------------

/-- Indicator, length and buffer are the same. -/
structure Parameter.SameValue (param param' : Parameter) : Prop where
  indicator : param'.m_indicator = param.m_indicator
  dataLen   : param'.m_dataLen = param.m_dataLen
  buffer    : param'.m_fetchBuffer = param.m_fetchBuffer

/-- What is asked of the reader `m` for parameters of the type `kind`, after
`calls` on a parameter of the type `t`. -/
structure ReadsLast {α : Type} (cfg : Setting) (t : DataType) (p : Nat) (calls : List RegisterCall)
    (kind : DataType) (own : Content → Option (Except OciResult α)) (m : M α) (v : World) :
    Prop where
  throws  : (∃ v', m v = .error (.oralib .badOutputType none) v') ↔
    t ≠ kind ∨ result? (Parameter.isNull p) v = some true
  returns : ∀ (call : RegisterCall) content outcome,
    LastWrite (RegisterCall.effect cfg t) calls call → call.assigns = some (some content) →
    own content = some outcome → result? m v = outcome.toOption

/-- The laws of a nullable register of type `t`, after `calls` on a parameter
that was NULL: NULL is what was not written or written last; an assignment
throws exactly when its value is rejected, and leaves the parameter then; and the
readers return the last value. -/
structure RegisterLaws (cfg : Setting) (t : DataType) (p : Nat) (calls : List RegisterCall)
    (v : World) : Prop where
  isNull      : result? (Parameter.isNull p) v = some true ↔
    Unwritten (RegisterCall.effect cfg t) calls ∨
      ∃ call, LastWrite (RegisterCall.effect cfg t) calls call ∧ call.assigns = some none
  assignments : ∀ (call : RegisterCall) (content : Option Content), call.Fits cfg →
    call.assigns = some content → (result? (call.exec p) v = none ↔ call.Rejected cfg t) ∧
      (result? (call.exec p) v = none → (v.params p).SameValue ((call.step p v).params p))
  toString    : ReadsLast cfg t p calls .text Content.asText (Parameter.toString p) v
  toDouble    : ReadsLast cfg t p calls .number (Content.asReal cfg) (Parameter.toDouble p) v
  toLong      : ReadsLast cfg t p calls .number (Content.asInt cfg) (Parameter.toLong p) v
  toDateTime  : ReadsLast cfg t p calls .date Content.asDate (Parameter.toDateTime p) v

section Laws

variable {calls : List RegisterCall} {call : RegisterCall} {content : Content} {v : World}

theorem RegisterCall.effect_clear_iff : call.effect cfg t = .clear ↔ call.assigns = some none := by
  rw [effect]
  split
  · rename_i hReads
    simp [hReads]
  · rename_i hNull
    simp [hNull]
  · rename_i hValue
    rw [hValue]
    split <;> simp

/-- What was written last is there, and is of the type. -/
theorem content_of_assigns (hLast : LastWrite (RegisterCall.effect cfg t) calls call)
    (hAssigns : call.assigns = some (some content)) :
    Register.content (RegisterCall.effect cfg t) calls = some content ∧ t = content.type := by
  have hEffect : call.effect cfg t = if content.Rejected cfg t then .keep else .set content :=
    call.effect_of_assigns hAssigns
  have hTaken : ¬ content.Rejected cfg t := fun hRej => hLast.writes (hEffect.trans (if_pos hRej))
  rw [content_of_lastWrite hLast, hEffect, if_neg hTaken]
  exact ⟨rfl, not_not.mp fun hOther => hTaken (.inl hOther)⟩

theorem Parameter.Holding.isNull_iff {held : Option Content}
    (hP : (v.params p).Holding cfg t held) :
    result? (Parameter.isNull p) v = some true ↔ held = none := by
  rw [← hP.indicator]
  show some (decide _) = some true ↔ _
  rw [Option.some_inj, decide_eq_true_eq]

section Readers

variable {α : Type} {held : Option Content} {kind : DataType}
  {own : Content → Option (Except OciResult α)} {m : M α}

/-- When a reader throws EC_BAD_OUTPUT_TYPE. -/
theorem ReadsOut.throws_iff (h : ReadsOut kind t held own m v) :
    (∃ v', m v = .error (.oralib .badOutputType none) v') ↔ t ≠ kind ∨ held = none := by
  unfold ReadsOut at h
  constructor
  · rintro ⟨v', hRun⟩
    have hEnd := (of_wp_error h hRun).2
    by_contra hGood
    rw [if_neg hGood] at hEnd
    obtain ⟨_, _, _, _, hOther⟩ := hEnd
    cases hOther
  · intro hBad
    cases hRun : m v with
    | ok a v' =>
      obtain ⟨-, hKind, content, hSome, -⟩ := of_wp_ok h hRun
      rcases hBad with hOther | hNone
      · exact absurd hKind hOther
      · rw [hNone] at hSome
        cases hSome
    | error e v' =>
      have hEnd := (of_wp_error h hRun).2
      rw [if_pos hBad] at hEnd
      exact ⟨v', by rw [hEnd]⟩

/-- What a reader makes of the value that is there. -/
theorem ReadsOut.result (h : ReadsOut kind t (some content) own m v) (hKind : t = kind)
    {outcome : Except OciResult α} (hOwn : own content = some outcome) :
    result? m v = outcome.toOption := by
  unfold ReadsOut at h
  rw [result?]
  cases hRun : m v with
  | ok a v' =>
    obtain ⟨-, -, content', hSame, hOk⟩ := of_wp_ok h hRun
    obtain rfl := Option.some.inj hSame
    rw [Option.some.inj (hOwn.symm.trans hOk)]
    rfl
  | error e v' =>
    have hEnd := (of_wp_error h hRun).2
    rw [if_neg (by simp [hKind])] at hEnd
    obtain ⟨content', result, hSame, hError, -⟩ := hEnd
    obtain rfl := Option.some.inj hSame
    rw [Option.some.inj (hOwn.symm.trans hError)]
    rfl

/-- A reader, after any calls. -/
theorem ReadsOut.readsLast
    (h : ReadsOut kind t (Register.content (RegisterCall.effect cfg t) calls) own m v)
    (hP : (v.params p).Holding cfg t (Register.content (RegisterCall.effect cfg t) calls))
    (hOwn : ∀ content, own content ≠ none → content.type = kind) :
    ReadsLast cfg t p calls kind own m v where
  throws := by
    rw [hP.isNull_iff]
    exact h.throws_iff
  returns call content outcome hLast hAssigns hOutcome := by
    obtain ⟨hHeld, hType⟩ := content_of_assigns hLast hAssigns
    have hKind : content.type = kind := hOwn content (by rw [hOutcome]; exact Option.some_ne_none _)
    rw [hHeld] at h
    exact h.result (hType.trans hKind) hOutcome

end Readers

/-- The laws hold of a parameter that holds what the calls left. -/
theorem Parameter.Holding.laws (hCodec : v.cfg.NumberCodec)
    (hP : (v.params p).Holding v.cfg t (Register.content (RegisterCall.effect v.cfg t) calls)) :
    RegisterLaws v.cfg t p calls v where
  isNull := by
    rw [hP.isNull_iff, content_none_iff]
    simp only [RegisterCall.effect_clear_iff]
  assignments call content hFits hAssigns := by
    have hCall := wp_assignment hP hFits hAssigns
    have hThrows : result? (call.exec p) v = none ↔ call.Rejected v.cfg t :=
      result_none_iff (wp_mono hCall (fun _ _ h => h.2) (fun _ _ h => h.2.1))
    refine ⟨hThrows, fun hNone => ?_⟩
    obtain ⟨e, hRun⟩ := eq_error_of_result hNone
    have hSame := (of_wp_error hCall hRun).2.2
    rw [RegisterCall.step, hSame]
    exact ⟨rfl, rfl, rfl⟩
  toString := (readsOut_toString hP).readsLast hP fun content hOwn => by
    cases content <;> first | rfl | exact absurd rfl hOwn
  toDouble := (readsOut_toDouble hCodec hP).readsLast hP fun content hOwn => by
    cases content <;> first | rfl | exact absurd rfl hOwn
  toLong := (readsOut_toLong hCodec hP).readsLast hP fun content hOwn => by
    cases content <;> first | rfl | exact absurd rfl hOwn
  toDateTime := (readsOut_toDateTime hP).readsLast hP fun content hOwn => by
    cases content <;> first | rfl | exact absurd rfl hOwn

end Laws

/-- **A bound parameter is a typed nullable register.** A `Bind` returned a
number, a date or a text, in either build, and any assignments, `ToNull`s and
reads were made on it, of texts that fit its buffer. OCI reads back the numbers
it makes. Then the laws of a register hold, before the first call (when it is
NULL) and after the last. -/
theorem register_laws {s : Nat} {name : TString} {type : DataType} {w₀ : World}
    (hBind : Statement.bind s name type w₀ = .ok p w)
    (hType : (w.params p).m_paramType ≠ .resultSet) (hCodec : w.cfg.NumberCodec)
    (calls : List RegisterCall) (hFits : ∀ call ∈ calls, call.Fits w.cfg) :
    RegisterLaws w.cfg (w.params p).m_paramType p calls (run (RegisterCall.step p) w calls) := by
  have hFresh := bind_holding hBind hType
  generalize (w.params p).m_paramType = t at hFresh ⊢
  have hStep : ∀ v held call, v.cfg = w.cfg ∧ (v.params p).Holding w.cfg t held →
      RegisterCall.Fits w.cfg call → (call.step p v).cfg = w.cfg ∧
        ((call.step p v).params p).Holding w.cfg t
          (Register.step (RegisterCall.effect w.cfg t) held call) := by
    rintro v held call ⟨hCfg, hP⟩ hCall
    rw [← hCfg] at hP hCall hCodec
    obtain ⟨hCfg', hP'⟩ := holdingAfter_step hCodec hP hCall
    rw [hCfg] at hCfg' hP'
    exact ⟨hCfg', hP'⟩
  obtain ⟨hCfg, hP⟩ := run_simulates hStep ⟨rfl, hFresh⟩ hFits
  rw [← hCfg] at hP hCodec
  have hLaws := hP.laws hCodec
  rw [hCfg] at hLaws
  exact hLaws

/-- 42 and 2.5 by the 22 bytes of an `OCINumber`: the number of bytes used, the
exponent and the digits. -/
def fortyTwo : OciNumber := [2, 193, 43] ++ List.replicate 19 0

def twoAndAHalf : OciNumber := [3, 193, 3, 51] ++ List.replicate 18 0

/-- Surroundings in which OCI converts these two. -/
def Setting.converting : Setting := { Setting.plain with
  numberFromInt := fun n => if n = 42 then .ok fortyTwo else .error .error
  numberFromReal := fun x => if x = 0x4004000000000000 then .ok twoAndAHalf else .error .error
  numberToInt := fun number => if number = fortyTwo then .ok 42 else .error .error
  numberToReal := fun number =>
    if number = twoAndAHalf then .ok 0x4004000000000000
    else if number = fortyTwo then .ok 0x4045000000000000
    else .error .error }

theorem numberCodec_converting : Setting.converting.NumberCodec := by
  have hInt : ∀ n number, Setting.converting.numberFromInt n = .ok number →
      n = 42 ∧ number = fortyTwo := by
    intro n number hNumber
    simp only [Setting.converting] at hNumber
    split at hNumber
    · rename_i hn
      exact ⟨hn, (Except.ok.inj hNumber).symm⟩
    · cases hNumber
  have hReal : ∀ x number, Setting.converting.numberFromReal x = .ok number →
      x = 0x4004000000000000 ∧ number = twoAndAHalf := by
    intro x number hNumber
    simp only [Setting.converting] at hNumber
    split at hNumber
    · rename_i hx
      exact ⟨hx, (Except.ok.inj hNumber).symm⟩
    · cases hNumber
  refine ⟨fun x number h => ?_, fun x number h => ?_, fun n number h => ?_, fun n number h => ?_⟩
  · rw [(hReal x number h).2]
    rfl
  · obtain ⟨rfl, rfl⟩ := hReal x number h
    rfl
  · rw [(hInt n number h).2]
    rfl
  · obtain ⟨rfl, rfl⟩ := hInt n number h
    rfl

/-- A statement with a number parameter: the numbers 0 and 2. -/
def numberBound : World :=
  exec (Statement.bind 0 (tstr "nId") .unknown)
    (exec (Connection.prepare []) (.start Setting.converting))

/-- 42, a text that is rejected, NULL, 2.5, a number OCI does not convert, and a
look at what is there. -/
def numberCalls : List RegisterCall :=
  [.assignInt 42, .assignText (tstr "x"), .toNull, .assignReal 0x4004000000000000,
    .assignInt 43, .toDouble]

theorem register_laws_number : RegisterLaws Setting.converting .number 2 numberCalls
    (run (RegisterCall.step 2) numberBound numberCalls) := by
  have hBind : Statement.bind 0 (tstr "nId") .unknown
      (exec (Connection.prepare []) (.start Setting.converting)) = .ok 2 numberBound :=
    eq_ok_of_result (by decide +kernel)
  have hCfg : numberBound.cfg = Setting.converting := rfl
  have hType : (numberBound.params 2).m_paramType = .number := by decide +kernel
  have hFits : ∀ call ∈ numberCalls, call.Fits numberBound.cfg := by
    rintro call hCall text rfl
    have hText : text = tstr "x" := by simpa [numberCalls] using hCall
    rw [hText]
    exact ⟨isText_replicate _ 1, by decide⟩
  have hLaws := register_laws hBind (by rw [hType]; decide)
    (hCfg ▸ numberCodec_converting) numberCalls hFits
  rw [hType] at hLaws
  exact hLaws

end Epol
