import SampleTypes.Text.CaseTable

/-! Letter case, one character at a time and without context: a letter may have several characters
as its other case, and a character without one stands for itself. -/
namespace SampleTypes.Text

/-- The image of `n` under the first run that holds it. -/
def imageIn (runs : List (Nat × Nat × Nat × Nat)) (n : Nat) : Option Nat :=
  runs.findSome? fun (first, last, step, image) =>
    if first ≤ n ∧ n ≤ last ∧ (n - first) % step = 0 then some (image + (n - first)) else none

/-- The other case of `c`, by a table of sequences and a table of runs. -/
def recase (sequences : List (Nat × List Nat)) (runs : List (Nat × Nat × Nat × Nat))
    (c : Char) : List Char :=
  match sequences.lookup c.toNat with
  | some ns => ns.map Char.ofNat
  | none => [((imageIn runs c.toNat).map Char.ofNat).getD c]

/-- The upper case of a character: `ß` becomes `SS`. -/
def upperChars (c : Char) : List Char :=
  if c.toNat < 0x80 then [c.toUpper] else recase upperSequences upperRuns c

/-- The lower case of a character: `İ` becomes `i` and a combining dot. -/
def lowerChars (c : Char) : List Char :=
  if c.toNat < 0x80 then [c.toLower] else recase lowerSequences lowerRuns c

/-- A capital letter, Roman numeral or circled capital. -/
def isUpperCase (c : Char) : Bool :=
  if c.toNat < 0x80 then c.isUpper
  else upperCaseRuns.any fun (first, last, step) =>
    first ≤ c.toNat && c.toNat ≤ last && (c.toNat - first) % step == 0

/-- A text with every character in lower case. -/
def lower (s : String) : String := .ofList (s.toList.flatMap lowerChars)

theorem upperChars_ascii {c : Char} (h : c.toNat < 0x80) : upperChars c = [c.toUpper] := by
  simp [upperChars, h]

theorem lowerChars_ascii {c : Char} (h : c.toNat < 0x80) : lowerChars c = [c.toLower] := by
  simp [lowerChars, h]

example : upperChars 'ß' = ['S', 'S'] ∧ lowerChars 'Σ' = ['σ'] ∧ upperChars 'ǆ' = ['Ǆ'] := by
  decide +kernel

end SampleTypes.Text
