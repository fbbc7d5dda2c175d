import Mathlib

/-!
# Printf-style formats

A format is taken apart into pieces: characters that stand for themselves, `%%`,
directives, each of which asks for at least one argument, and a `%` that begins
none of these, on which the formatter's behaviour is undefined. `asked` counts
the arguments a format asks for, and `output` is its output where that depends
on no argument.

* `asked_of_plain`, `output_of_plain` — a text without `%` asks for nothing and
  is formatted as itself.
* `kept_of_output` — of any other format all characters but `%` come through,
  and the output is shorter.
-/

namespace Format

/-- `%`. -/
def percentSign : Nat := 37

inductive Piece
  | lit (ch : Nat)
  | percent
  | directive (args : Nat)
  | invalid
deriving DecidableEq

-- ---------------------------------------------------------------------------
-- The grammar
-- ---------------------------------------------------------------------------

/-- The codes of the characters of a set. -/
def codes (s : String) : List Nat := s.toList.map Char.toNat

/-- A width or a precision: `*`, which asks for an argument, or digits. -/
def number : List Nat → Nat × List Nat
  | 42 :: rest => (1, rest)
  | rest => (0, rest.dropWhile (· ∈ codes "0123456789"))

/-- A precision, if there is one. -/
def precision : List Nat → Nat × List Nat
  | 46 :: rest => number rest
  | rest => (0, rest)

/-- A directive behind its `%`: flags, width, precision, length modifier and
conversion. The result is the number of arguments and what follows. -/
def directive (format : List Nat) : Option (Nat × List Nat) :=
  let width := number (format.dropWhile (· ∈ codes "-+ #0"))
  let prec := precision width.2
  match prec.2.dropWhile (· ∈ codes "hljztL") with
  | ch :: rest =>
    if ch ∈ codes "diouxXeEfFgGaAcspn" then some (width.1 + prec.1 + 1, rest) else none
  | [] => none

/-- The pieces of a format of at most `fuel` characters. -/
def scan : Nat → List Nat → List Piece
  | 0, _ => []
  | _ + 1, [] => []
  | fuel + 1, ch :: rest =>
    if ch ≠ percentSign then .lit ch :: scan fuel rest
    else if rest.head? = some percentSign then .percent :: scan fuel rest.tail
    else
      match directive rest with
      | some (args, rest') => .directive args :: scan fuel rest'
      | none => [.invalid]

/-- The pieces of a format. -/
def pieces (format : List Nat) : List Piece := scan format.length format

/-- The arguments asked for. -/
def Piece.asked : Piece → Nat
  | .directive args => args
  | _ => 0

def asked (format : List Nat) : Nat := ((pieces format).map Piece.asked).sum

/-- What a piece puts out, if that depends on no argument. -/
def Piece.output : Piece → Option (List Nat)
  | .lit ch => some [ch]
  | .percent => some [percentSign]
  | _ => none

/-- The output of some pieces. -/
def outputOf : List Piece → Option (List Nat)
  | [] => some []
  | piece :: ps => piece.output.bind fun out => (outputOf ps).map (out ++ ·)

def output (format : List Nat) : Option (List Nat) := outputOf (pieces format)

-- ---------------------------------------------------------------------------
-- Plain texts
-- ---------------------------------------------------------------------------

theorem scan_of_plain {format : List Nat} (hPlain : percentSign ∉ format) {fuel : Nat}
    (hFuel : format.length ≤ fuel) : scan fuel format = format.map .lit := by
  induction format generalizing fuel with
  | nil => cases fuel <;> rfl
  | cons ch rest ih =>
    rw [List.length_cons] at hFuel
    obtain ⟨fuel, rfl⟩ : ∃ n, fuel = n + 1 := ⟨fuel - 1, by omega⟩
    have hCh : ch ≠ percentSign := fun h => hPlain (h ▸ List.mem_cons_self ..)
    rw [scan, if_pos hCh, ih (fun h => hPlain (List.mem_cons_of_mem _ h)) (by omega)]
    rfl

theorem pieces_of_plain {format : List Nat} (hPlain : percentSign ∉ format) :
    pieces format = format.map .lit :=
  scan_of_plain hPlain (Nat.le_refl _)

theorem asked_of_plain {format : List Nat} (hPlain : percentSign ∉ format) :
    asked format = 0 := by
  rw [asked, pieces_of_plain hPlain, List.map_map]
  induction format with
  | nil => rfl
  | cons ch rest ih =>
    rw [List.map_cons, List.sum_cons, ih fun h => hPlain (List.mem_cons_of_mem _ h)]
    rfl

theorem outputOf_lits (text : List Nat) : outputOf (text.map .lit) = some text := by
  induction text with
  | nil => rfl
  | cons ch rest ih =>
    rw [List.map_cons, outputOf, ih]
    rfl

/-- **A text without `%`** is formatted as itself. -/
theorem output_of_plain {format : List Nat} (hPlain : percentSign ∉ format) :
    output format = some format := by
  rw [output, pieces_of_plain hPlain, outputOf_lits]

-- ---------------------------------------------------------------------------
-- Formats with an output
-- ---------------------------------------------------------------------------

/-- What the output keeps of a format: every other character, and at most the
length, less where there is a `%`. -/
structure Kept (format out : List Nat) : Prop where
  count  : ∀ ch, ch ≠ percentSign → out.count ch = format.count ch
  length : out.length ≤ format.length
  short  : percentSign ∈ format → out.length < format.length

/-- One character is kept. -/
theorem Kept.cons {format out : List Nat} (h : Kept format out) {ch : Nat}
    (hCh : ch ≠ percentSign) : Kept (ch :: format) (ch :: out) where
  count c hc := by rw [List.count_cons, List.count_cons, h.count c hc]
  length := Nat.succ_le_succ h.length
  short hMem := by
    rcases List.mem_cons.mp hMem with hEq | hMem
    · exact absurd hEq.symm hCh
    · exact Nat.succ_lt_succ (h.short hMem)

/-- Of two `%` one is kept. -/
theorem Kept.percent {format out : List Nat} (h : Kept format out) :
    Kept (percentSign :: percentSign :: format) (percentSign :: out) where
  count c hc := by
    rw [List.count_cons_of_ne (Ne.symm hc), List.count_cons_of_ne (Ne.symm hc),
      List.count_cons_of_ne (Ne.symm hc), h.count c hc]
  length := Nat.succ_le_succ (Nat.le_succ_of_le h.length)
  short _ := Nat.succ_lt_succ (Nat.lt_succ_of_le h.length)

theorem outputOf_cons {piece : Piece} {ps : List Piece} {out : List Nat}
    (hOut : outputOf (piece :: ps) = some out) :
    ∃ first rest, piece.output = some first ∧ outputOf ps = some rest ∧ out = first ++ rest := by
  rw [outputOf, Option.bind_eq_some_iff] at hOut
  obtain ⟨first, hFirst, hMap⟩ := hOut
  obtain ⟨rest, hRest, hEq⟩ := Option.map_eq_some_iff.mp hMap
  exact ⟨first, rest, hFirst, hRest, hEq.symm⟩

theorem kept_of_scan {format out : List Nat} {fuel : Nat} (hFuel : format.length ≤ fuel)
    (hOut : outputOf (scan fuel format) = some out) : Kept format out := by
  induction fuel generalizing format out with
  | zero =>
    obtain rfl : format = [] := List.length_eq_zero_iff.mp (by omega)
    cases hOut
    exact ⟨fun _ _ => rfl, Nat.le_refl _, fun h => absurd h List.not_mem_nil⟩
  | succ fuel ih =>
    cases format with
    | nil =>
      cases hOut
      exact ⟨fun _ _ => rfl, Nat.le_refl _, fun h => absurd h List.not_mem_nil⟩
    | cons ch rest =>
      rw [List.length_cons] at hFuel
      rw [scan] at hOut
      split at hOut
      · rename_i hCh
        obtain ⟨first, out', hFirst, hRest, rfl⟩ := outputOf_cons hOut
        cases hFirst
        exact (ih (by omega) hRest).cons hCh
      · rename_i hCh
        obtain rfl : ch = percentSign := Classical.not_not.mp hCh
        split at hOut
        · rename_i hHead
          obtain ⟨first, out', hFirst, hRest, rfl⟩ := outputOf_cons hOut
          cases hFirst
          obtain ⟨rest', rfl⟩ := List.head?_eq_some_iff.mp hHead
          rw [List.length_cons] at hFuel
          exact (ih (by rw [List.tail_cons]; omega) hRest).percent
        · -- a directive or an undefined piece has no output of its own
          split at hOut
          · obtain ⟨first, out', hFirst, -, -⟩ := outputOf_cons hOut
            cases hFirst
          · obtain ⟨first, out', hFirst, -, -⟩ := outputOf_cons hOut
            cases hFirst

theorem kept_of_output {format out : List Nat} (hOut : output format = some out) :
    Kept format out :=
  kept_of_scan (Nat.le_refl _) hOut

end Format
