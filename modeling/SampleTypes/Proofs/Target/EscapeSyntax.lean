import SampleTypes.Proofs.Target.StringSyntax

/-! String literals in languages that write codes in braces. Of the escapes of JSON they share
those of quotes, backslashes and three control characters, so a literal of JSON is refused in them
just if its text has another control character. -/
namespace SampleTypes.Target

open Json

/-- What stands behind a backslash. -/
inductive Escape where
  /-- A character, and how many characters the escape takes. -/
  | char (c : Char) (length : Nat)
  /-- An expression begins. -/
  | expression
  | unknown
  deriving DecidableEq, Repr

def Escape.ofOption : Option (Char × Nat) → Escape
  | some (c, n) => char c n
  | none => unknown

/-- The character whose code these hexadecimal digits are. -/
def codeChar? (digits : List Char) : Option Char := do
  let n ← digits.foldlM (fun n c => (hexValue? c).map (n * 16 + ·)) 0
  if n.isValidChar then some (.ofNat n) else none

/-- The character whose code stands in braces, and how many characters these take with the code.
There is a digit in front, and what fills the gaps between digits does not count. -/
def bracedCode? (maxDigits : Nat) (fills : Char → Bool) : List Char → Option (Char × Nat)
  | '\x7b' :: cs =>
    let code := cs.takeWhile (· != '\x7d')
    let digits := code.filter (!fills ·)
    if code.length < cs.length ∧ code.head? = digits.head? ∧ 0 < digits.length ∧
        digits.length ≤ maxDigits then
      (codeChar? digits).map fun c => (c, code.length + 2)
    else none
  | _ => none

/-- The escape of a letter that stands for a character. -/
def letterEscape (letters : List (Char × Char)) (e : Char) : Escape :=
  .ofOption ((letters.lookup e).map fun c => (c, 1))

/-- The escape of a code in braces, with the letter that announces it. -/
def codeEscape (maxDigits : Nat) (fills : Char → Bool) (cs : List Char) : Escape :=
  .ofOption ((bracedCode? maxDigits fills cs).map fun (c, n) => (c, n + 1))

/-- Literals in double quotes. -/
structure EscapeSyntax where
  escape : List Char → Escape
  /-- The characters that cannot stand for themselves. -/
  forbids : Char → Bool

namespace EscapeSyntax

/-- Reads from after the opening quote, leaving out the characters that belong to an escape. -/
def read (g : EscapeSyntax) : (skipped : Nat) → List Char → Reading
  | _, [] => .refused
  | n + 1, _ :: cs => g.read n cs
  | 0, c :: cs =>
    if c = '"' then .text [] cs
    else if c = '\\' then
      match g.escape cs with
      | .char d n => (g.read n cs).cons d
      | .expression => .expression
      | .unknown => .refused
    else if g.forbids c then .refused
    else (g.read 0 cs).cons c

/-- What a complete literal is read as, whatever follows it. -/
def ReadAs (g : EscapeSyntax) (literal : String) (result : (rest : List Char) → Reading) : Prop :=
  ∃ body, literal.toList = '"' :: body ∧ ∀ rest, g.read 0 (body ++ rest) = result rest

/-- A literal that is read as a text and ends with its last character. -/
def Denotes (g : EscapeSyntax) (literal s : String) : Prop := g.ReadAs literal (.text s.toList)

/-- A literal in which an expression begins. -/
def Evaluates (g : EscapeSyntax) (literal : String) : Prop := g.ReadAs literal fun _ => .expression

/-- A literal that the language has no reading for. -/
def Refuses (g : EscapeSyntax) (literal : String) : Prop := g.ReadAs literal fun _ => .refused

/-- The control characters whose escapes are the same as in JSON. -/
def sharedControls : List Char := ['\n', '\r', '\t']

/-- Whether a character is written in the same way as in JSON. -/
def IsShared (c : Char) : Prop := c.toNat < 0x20 → c ∈ sharedControls

instance : DecidablePred IsShared := fun c =>
  inferInstanceAs (Decidable (c.toNat < 0x20 → c ∈ sharedControls))

/-- A text without other control characters below the space. -/
def SharesControls (s : List Char) : Prop := ∀ c ∈ s, IsShared c

instance : DecidablePred SharesControls := fun s => List.decidableBAll IsShared s

/-- A syntax that shares escapes with JSON: a letter behind a backslash is the same as there,
unless it is for a control character that is not shared, and no code stands outside of braces. -/
structure SharesJson (g : EscapeSyntax) : Prop where
  letter : ∀ p ∈ StringSyntax.shortEscapes, ∀ cs, g.escape (p.2 :: cs) =
    if IsShared p.1 then .char p.1 1 else .unknown
  code : ∀ cs, g.escape ('u' :: '0' :: cs) = .unknown
  forbids : ∀ c : Char, 0x20 ≤ c.toNat → g.forbids c = false

variable {g : EscapeSyntax}

/-- A literal is read in one way. -/
lemma ReadAs.unique {literal : String} {r r' : List Char → Reading} (h : g.ReadAs literal r)
    (h' : g.ReadAs literal r') : r = r' := Reading.unique h h'

lemma ne_of_printable {c d : Char} (hc : 0x20 ≤ c.toNat) (hd : d.toNat < 0x20) : c ≠ d := by
  rintro rfl
  omega

/-- What JSON writes as a code is not shared. -/
lemma not_isShared_of_code {c : Char} (hc : c.toNat < 0x20) (hescape : (escapeChar c).length = 6) :
    ¬IsShared c := by
  intro h
  have hcontrol : c = '\n' ∨ c = '\r' ∨ c = '\t' := by simpa [sharedControls] using h hc
  rcases hcontrol with rfl | rfl | rfl <;> contradiction

variable (hg : g.SharesJson)

include hg

/-- A written character is read as itself, if it is shared. -/
lemma read_escapeChar (c : Char) (cs : List Char) :
    g.read 0 (escapeChar c ++ cs) = if IsShared c then (g.read 0 cs).cons c else .refused := by
  have hwritten := written_escapeChar c
  generalize hescape : escapeChar c = written at hwritten ⊢
  cases hwritten with
  | short e _ _ =>
    have hletter := hg.letter _ (StringSyntax.mem_shortEscapes_iff.mpr hescape) cs
    rw [List.cons_append, List.singleton_append, read, if_neg (by decide), if_pos rfl, hletter]
    by_cases hc : IsShared c
    · simp only [if_pos hc]
      rfl
    · simp only [if_neg hc]
  | code hc =>
    rw [if_neg (not_isShared_of_code hc (by rw [hescape]; rfl))]
    simp only [List.cons_append, List.nil_append]
    rw [read, if_neg (by decide), if_pos rfl, hg.code]
  | plain hquote hbackslash hc =>
    have hshared : IsShared c := fun hlow => absurd hc (by omega)
    rw [if_pos hshared, List.singleton_append, read, if_neg hquote, if_neg hbackslash,
      hg.forbids c hc]
    rfl

/-- A written text is read as itself, or refused for a character that is not shared. -/
theorem read_escaped (s rest : List Char) : g.read 0 (s.flatMap escapeChar ++ '"' :: rest) =
    if SharesControls s then .text s rest else .refused := by
  induction s with
  | nil =>
    have hnil : SharesControls [] := List.forall_mem_nil _
    rw [if_pos hnil, List.flatMap_nil, List.nil_append, read, if_pos rfl]
  | cons c s ih =>
    have hcons : SharesControls (c :: s) ↔ IsShared c ∧ SharesControls s := List.forall_mem_cons
    rw [List.flatMap_cons, List.append_assoc, read_escapeChar hg, ih]
    by_cases hc : IsShared c
    · by_cases hs : SharesControls s
      · rw [if_pos hc, if_pos hs, if_pos (hcons.mpr ⟨hc, hs⟩)]
        rfl
      · rw [if_pos hc, if_neg hs, if_neg fun h => hs (hcons.mp h).2]
        rfl
    · rw [if_neg hc, if_neg fun h => hc (hcons.mp h).1]

lemma readAs_quoted (s : String) : g.ReadAs (quoted s) fun rest =>
    if SharesControls s.toList then .text s.toList rest else .refused := by
  refine ⟨_, toList_quoted s, fun rest => ?_⟩
  rw [List.append_assoc, List.singleton_append]
  exact read_escaped hg s.toList rest

/-- The literal that JSON writes for a text denotes it or is refused, and no expression begins in
it. -/
theorem quoted_outcomes (s : String) :
    (g.Denotes (quoted s) s ↔ SharesControls s.toList) ∧
      (g.Refuses (quoted s) ↔ ¬SharesControls s.toList) ∧ ¬g.Evaluates (quoted s) := by
  have hread := readAs_quoted hg s
  by_cases hs : SharesControls s.toList
  · simp only [if_pos hs] at hread
    refine ⟨iff_of_true hread hs, iff_of_false (fun h => ?_) (not_not.mpr hs), fun h => ?_⟩
    · cases congrFun (hread.unique h) []
    · cases congrFun (hread.unique h) []
  · simp only [if_neg hs] at hread
    refine ⟨iff_of_false (fun h => ?_) hs, iff_of_true hread hs, fun h => ?_⟩
    · cases congrFun (hread.unique h) []
    · cases congrFun (hread.unique h) []

end EscapeSyntax

end SampleTypes.Target
