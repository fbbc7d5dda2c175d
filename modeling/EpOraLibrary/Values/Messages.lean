import EpOraLibrary.Model.Lookup
import EpOraLibrary.Model.Message
import EpOraLibrary.Ownership.Parameters
import EpOraLibrary.Values.Layout

/-!
# EpOraLibrary — names in error messages

Every throw site that reports a name passes it as the format of the message.
A name with a `%` in it is then a format: it asks for arguments nobody passed,
or comes out shorter than it is.

* `verbatim_iff` — an error whose format is a name.
* `throwsAbout_setupType`, `throws_bind`, `throwsAbout_newColumn` — the throw sites
  pass the name they were given.
* `name_verbatim_iff` — the messages of all of them.
-/

namespace Epol

open Ledger Prog

-- ---------------------------------------------------------------------------
-- One message
-- ---------------------------------------------------------------------------

/-- What is asked of the error about a name: the formatter asks for no
argument, and the description ends with the name. -/
structure OraError.Verbatim (errorText : TString) (e : OraError) (name : TString) : Prop where
  asked : ∀ format, e.format = some format → Format.asked format = 0
  named : ∃ text, e.description errorText = some text ∧ tstr ": " ++ name <:+ text

/-- The names that stand for themselves and are not cut. -/
def PlainName (name : TString) : Prop :=
  Format.percentSign ∉ name ∧ name.length + 1 < ERROR_FORMAT_MAX_MSG_LEN

/-- Of two ends of one text the longer one ends with the shorter one. -/
theorem suffix_split {α : Type} {xs ys base other : List α} (h : base ++ xs = other ++ ys)
    (hLonger : xs.length ≤ ys.length) : ∃ z, ys = z ++ xs := by
  have hXs : xs <:+ other ++ ys := ⟨base, h⟩
  have hYs : ys <:+ other ++ ys := ⟨other, rfl⟩
  obtain ⟨z, hz⟩ := List.suffix_of_suffix_length_le hXs hYs hLonger
  exact ⟨z, hz.symm⟩

theorem colon_space : tstr ": " = [58, 32] := by decide

/-- What was put out cannot end with a name it is shorter than. -/
theorem not_suffix_of_shorter {base name out : TString} {n : Nat}
    (hKept : Format.Kept name out) (hName : name.length ≤ n + 1)
    (hShort : (out.take n).length < name.length) :
    ¬ tstr ": " ++ name <:+ base ++ tstr ": " ++ out.take n := by
  rintro ⟨other, hOther⟩
  rw [List.append_assoc, colon_space] at hOther
  obtain ⟨z, hz⟩ := suffix_split hOther.symm (by
    rw [List.length_append, List.length_append]
    omega)
  have hLength := congrArg List.length hz
  simp only [List.length_append] at hLength
  -- the part in front begins with a colon
  obtain ⟨z', rfl⟩ : ∃ z', z = 58 :: z' := by
    cases z with
    | nil =>
      rw [List.length_nil] at hLength
      omega
    | cons ch z' =>
      have hHead := (List.cons.inj hz).1
      exact ⟨z', by rw [hHead]⟩
  by_cases hCut : out.length ≤ n
  · -- all colons came through, so there is one too many
    rw [List.take_of_length_le hCut] at hz
    have hCount := congrArg (List.count 58) hz
    have hColon : 0 < (58 :: z').count 58 := List.count_pos_iff.mpr (List.mem_cons_self ..)
    rw [List.count_append, List.count_append, List.count_append,
      hKept.count 58 (by decide)] at hCount
    omega
  · -- one character was cut off
    have hLe := hKept.length
    rw [List.length_take] at hLength hShort
    simp only [List.length_cons, List.length_nil] at hLength
    obtain rfl : z' = [] := List.length_eq_zero_iff.mp (by omega)
    have hSecond := (List.cons.inj (List.cons.inj hz).2).1
    exact absurd hSecond (by decide)

/-- An error whose format is a name. -/
theorem verbatim_iff {errorText name : TString} {e : OraError} (hFormat : e.format = some name)
    (hName : name.length < ERROR_FORMAT_MAX_MSG_LEN) :
    e.Verbatim errorText name ↔ PlainName name := by
  have hDescription : e.description errorText =
      (Format.output name).map fun text => e.code errorText ++ tstr ": " ++ text.take 1022 := by
    unfold OraError.description
    rw [hFormat]
    show (STPrintf_V _ name).map _ = _
    rw [STPrintf_V, Option.map_map]
    rfl
  unfold PlainName ERROR_FORMAT_MAX_MSG_LEN at *
  constructor
  · rintro ⟨hAsked, text, hText, hSuffix⟩
    rw [hDescription] at hText
    obtain ⟨out, hOut, rfl⟩ := Option.map_eq_some_iff.mp hText
    have hKept := Format.kept_of_output hOut
    have hWhole : name.length ≤ (out.take 1022).length := Nat.le_of_not_lt fun hShort =>
      not_suffix_of_shorter hKept (by omega) hShort hSuffix
    rw [List.length_take] at hWhole
    refine ⟨fun hMem => ?_, by omega⟩
    have hLess := hKept.short hMem
    omega
  · rintro ⟨hPlain, hFits⟩
    constructor
    · intro format hSome
      rw [hFormat] at hSome
      rw [← Option.some.inj hSome]
      exact Format.asked_of_plain hPlain
    · refine ⟨e.code errorText ++ tstr ": " ++ name, ?_, e.code errorText, ?_⟩
      · rw [hDescription, Format.output_of_plain hPlain, Option.map_some,
          List.take_of_length_le (by omega)]
      · rw [List.append_assoc]

-- ---------------------------------------------------------------------------
-- The throw sites
-- ---------------------------------------------------------------------------

/-- All that `x` throws has the name for its format. -/
def ThrowsAbout {α : Type} (name : TString) (x : M α) : Prop :=
  ∀ w, wp x (fun _ _ => True) (fun e _ => e.format = some name) w

section Sites

variable {α β : Type} {name : TString}

theorem throwsAbout_bind {x : M α} {f : α → M β} (hx : ThrowsAbout name x)
    (hf : ∀ a, ThrowsAbout name (f a)) : ThrowsAbout name (x >>= f) := by
  intro w
  rw [wp_bind]
  exact wp_mono (hx w) (fun a w' _ => hf a w') (fun _ _ hE => hE)

theorem throwsAbout_throwOnError (result : OciResult) (error : Option Nat) :
    ThrowsAbout name (throwOnError result error (some name) : M α) :=
  fun _ => wp_throwOnError fun _ _ => rfl

theorem throwsAbout_bindByName (stmt error : Option Nat) (reg : Registration) :
    ThrowsAbout name (ociBindByName stmt error name reg) := by
  intro w
  simp only [ociBindByName, wp_bind, wp_pass, wp_answer, wp_ite, wp_get]
  split
  · cases stmt <;> trivial
  · trivial

theorem throwsAbout_setCharset (result : OciResult) :
    ThrowsAbout name (Parameter.setCharset result) := by
  intro w
  rw [Parameter.setCharset, wp_bind, wp_get, wp_ite]
  split
  · rw [wp_andThen]
    split <;> trivial
  · trivial

/-- `setupType` throws for an unknown prefix. -/
theorem throwsAbout_setupType (p : Nat) (type : DataType) :
    ThrowsAbout name (Parameter.setupType p name type) := by
  intro w
  rw [Parameter.setupType, wp_bind, wp_get]
  dsimp only
  rw [wp_ite]
  by_cases hArray : firstChar (if firstChar name = ':'.toNat then name.tail else name) = PP_ARRAY
  · rw [if_pos hArray, wp_bind, wp_modifyParam]
    split
    · trivial
    · rfl
  · rw [if_neg hArray]
    split
    · trivial
    · rfl

/-- `bind` throws when the placeholder could not be bound. -/
theorem throws_bind {p stmt : Nat} {w : World} (hName : (w.params p).m_paramName = name)
    (hType : (w.params p).m_paramType ∈ [DataType.number, .date, .text]) :
    wp (Parameter.bind p stmt) (fun _ _ => True) (fun e _ => e.format = some name) w := by
  obtain ⟨buffer, hInitial⟩ : ∃ buffer, Parameter.initial w.cfg (w.params p).m_paramType =
      some buffer := by
    simp only [List.mem_cons, List.not_mem_nil, or_false] at hType
    rcases hType with hType | hType | hType <;> exact ⟨_, by rw [hType]; rfl⟩
  have hTail : ∀ (error : Option Nat) (reg : Registration), ThrowsAbout name (do
      modifyParam p fun param => { param with
        m_fetchBuffer := some buffer
        m_dataLen := param.m_size % 2 ^ 16 }
      let result ← ociBindByName (w.stmts stmt).m_stmtHandle error name reg
      let result ← Parameter.setCharset result
      if result ≠ .success then throwOnError result error (some name)
      modifyParam p fun param => { param with m_stmt := some stmt }) := by
    intro error reg
    refine throwsAbout_bind (fun _ => trivial) fun _ =>
      throwsAbout_bind (throwsAbout_bindByName _ _ _) fun result =>
        throwsAbout_bind (throwsAbout_setCharset result) fun result w' => ?_
    simp only [wp_ite, wp_bind]
    split
    · exact throwsAbout_throwOnError _ _ _
    · trivial
  rw [Parameter.bind, wp_bind, wp_get]
  dsimp only
  rw [hInitial, hName]
  dsimp only
  rw [wp_ite]
  split
  · rw [wp_bind, wp_pass]
    exact hTail _ _ _
  · exact hTail _ _ _

/-- The constructor of `Column` throws for an unsupported type. -/
theorem throwsAbout_newColumn (rs ociDataType maxDataSize fetchSize : Nat) :
    ThrowsAbout name (Column.new rs name ociDataType maxDataSize fetchSize) := by
  intro w
  rw [Column.new, wp_bind, wp_acquire, wp_bind, wp_get]
  dsimp only
  split
  · trivial
  · rfl

end Sites

-- ---------------------------------------------------------------------------
-- All messages
-- ---------------------------------------------------------------------------

theorem about_of_error {α : Type} {name : TString} {x : M α} {w w' : World} {e : OraError}
    (h : wp x (fun _ _ => True) (fun e _ => e.format = some name) w) (hx : x w = .error e w') :
    e.format = some name := by
  have hThrown := of_wp_error h hx
  exact hThrown

/-- **Names in messages**: whatever is thrown about a name by the lookups, by
`setupType`, `bind` and the constructor of `Column`, the message has the name
as it is exactly when the name is plain. -/
theorem name_verbatim_iff (errorText : TString) {name : TString}
    (hName : name.length < ERROR_FORMAT_MAX_MSG_LEN) :
    (∀ toUpper (rs : ResultSet) e, rs.columnNamed toUpper name = .error e →
        (e.Verbatim errorText name ↔ PlainName name)) ∧
      (∀ (st : Statement) e, st.parameterNamed name = .error e →
        (e.Verbatim errorText name ↔ PlainName name)) ∧
      (∀ p type w e w', Parameter.setupType p name type w = .error e w' →
        (e.Verbatim errorText name ↔ PlainName name)) ∧
      (∀ p stmt w e w', (w.params p).m_paramName = name →
        (w.params p).m_paramType ∈ [DataType.number, .date, .text] →
        Parameter.bind p stmt w = .error e w' →
          (e.Verbatim errorText name ↔ PlainName name)) ∧
      ∀ rs ociDataType maxDataSize fetchSize w e w',
        Column.new rs name ociDataType maxDataSize fetchSize w = .error e w' →
          (e.Verbatim errorText name ↔ PlainName name) := by
  refine ⟨fun toUpper rs e hThrown => ?_, fun st e hThrown => ?_,
    fun p type w e w' hThrown => ?_, fun p stmt w e w' hParam hType hThrown => ?_,
    fun rs ociDataType maxDataSize fetchSize w e w' hThrown => ?_⟩
  · unfold ResultSet.columnNamed at hThrown
    split at hThrown
    · cases hThrown
    · cases hThrown
      exact verbatim_iff rfl hName
  · unfold Statement.parameterNamed at hThrown
    split at hThrown
    · cases hThrown
    · cases hThrown
      exact verbatim_iff rfl hName
  · exact verbatim_iff (about_of_error (throwsAbout_setupType p type w) hThrown) hName
  · exact verbatim_iff (about_of_error (throws_bind hParam hType) hThrown) hName
  · exact verbatim_iff (about_of_error (throwsAbout_newColumn _ _ _ _ w) hThrown) hName

/-- A column that is not there. -/
theorem name_verbatim_missing :
    (OraError.oralib .columnNotFound (some (tstr "NAME"))).Verbatim [] (tstr "NAME") :=
  ((name_verbatim_iff [] (by decide)).1 id {} _ rfl).mpr ⟨by decide, by decide⟩

/-- The name of that one asks the formatter for an argument. -/
theorem name_read_as_format :
    ResultSet.columnNamed id {} (tstr "100%s") =
      .error (.oralib .columnNotFound (some (tstr "100%s"))) ∧
    Format.asked (tstr "100%s") = 1 ∧
    ¬ (OraError.oralib .columnNotFound (some (tstr "100%s"))).Verbatim [] (tstr "100%s") := by
  have hAsked : Format.asked (tstr "100%s") = 1 := by decide
  refine ⟨rfl, hAsked, fun hVerbatim => ?_⟩
  have hNone := hVerbatim.asked _ rfl
  rw [hAsked] at hNone
  cases hNone

end Epol
