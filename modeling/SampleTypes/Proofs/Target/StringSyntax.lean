import SampleTypes.Proofs.Json.Quoted

/-! How languages read string literals. A literal is a text if it comes to its closing quote: it
does not if a language lacks one of its escapes, or finds an expression to evaluate in it. What is
written as JSON is read back in other languages where they know its escapes, and nothing in the
text begins an expression. -/
namespace SampleTypes.Target

open Json

/-- What a literal is read as, from after its opening quote. -/
inductive Reading where
  /-- A text, and what follows the closing quote. -/
  | text (s rest : List Char)
  /-- An expression begins in the literal. -/
  | expression
  | refused
  deriving DecidableEq, Repr

/-- A character before what is read behind it. -/
def Reading.cons (c : Char) : Reading → Reading
  | text s rest => text (c :: s) rest
  | expression => expression
  | refused => refused

lemma Reading.cons_eq_text_iff {c d : Char} {r : Reading} {s rest : List Char} :
    r.cons c = .text (d :: s) rest ↔ c = d ∧ r = .text s rest := by
  cases r <;> simp [cons, and_assoc]

/-- What stands behind the quote of a literal is read in one way. -/
lemma Reading.unique {quote : Char} {literal : String} {read : List Char → Reading}
    {r r' : List Char → Reading}
    (h : ∃ body, literal.toList = quote :: body ∧ ∀ rest, read (body ++ rest) = r rest)
    (h' : ∃ body, literal.toList = quote :: body ∧ ∀ rest, read (body ++ rest) = r' rest) :
    r = r' := by
  obtain ⟨body, hliteral, hread⟩ := h
  obtain ⟨body', hliteral', hread'⟩ := h'
  obtain ⟨-, rfl⟩ := List.cons.inj (hliteral.symm.trans hliteral')
  funext rest
  rw [← hread, hread']

/-- The character whose code stands in four hexadecimal digits, and their number. -/
def fourDigits? : List Char → Option (Char × Nat)
  | a :: b :: c :: d :: _ => do
    let n ← hex4? a b c d
    if n.isValidChar then some (.ofNat n, 4) else none
  | _ => none

structure StringSyntax where
  quote : Char
  /-- What a letter behind a backslash stands for, unless it announces a code. -/
  letter? : Char → Option Char
  /-- The character of the code behind `\u`, and how many characters the code takes. -/
  code? : List Char → Option (Char × Nat) := fourDigits?
  /-- Whether a character begins an expression before the one that follows it. -/
  opens : Char → Option Char → Bool
  /-- The characters that cannot stand for themselves. -/
  forbids : Char → Bool := fun _ => false

namespace StringSyntax

/-- The character that is escaped by what follows a backslash, and how many characters
that takes. -/
def escape? (g : StringSyntax) : List Char → Option (Char × Nat)
  | [] => none
  | e :: cs =>
    if e = 'u' then (g.code? cs).map fun (c, n) => (c, n + 1)
    else (g.letter? e).map fun c => (c, 1)

/-- Reads from after the opening quote, leaving out the characters that belong to an escape. -/
def read (g : StringSyntax) : (skipped : Nat) → List Char → Reading
  | _, [] => .refused
  | n + 1, _ :: cs => g.read n cs
  | 0, c :: cs =>
    if c = g.quote then .text [] cs
    else if c = '\\' then
      match g.escape? cs with
      | some (d, n) => (g.read n cs).cons d
      | none => .refused
    else if g.opens c cs.head? then .expression
    else if g.forbids c then .refused
    else (g.read 0 cs).cons c

/-- What a complete literal is read as, whatever follows it. -/
def ReadAs (g : StringSyntax) (literal : String) (result : (rest : List Char) → Reading) : Prop :=
  ∃ body, literal.toList = g.quote :: body ∧ ∀ rest, g.read 0 (body ++ rest) = result rest

/-- A literal that is read as a text and ends with its last character. -/
def Denotes (g : StringSyntax) (literal s : String) : Prop := g.ReadAs literal (.text s.toList)

/-- A literal in which an expression begins. -/
def Evaluates (g : StringSyntax) (literal : String) : Prop := g.ReadAs literal fun _ => .expression

/-- Whether an expression would begin in a text if its characters stood for themselves. -/
def Opens (g : StringSyntax) (s : List Char) : Prop :=
  ∃ c d, g.opens c (some d) = true ∧ [c, d] <:+: s

/-- The characters that JSON escapes by a letter, each with its letter. -/
def shortEscapes : List (Char × Char) :=
  [('"', '"'), ('\\', '\\'), ('\x08', 'b'), ('\x0c', 'f'), ('\n', 'n'), ('\r', 'r'), ('\t', 't')]

/-- Whether the letter that escapes a character in JSON escapes it here too. -/
def Knows (g : StringSyntax) (c : Char) : Prop :=
  ∀ e, escapeChar c = ['\\', e] → g.letter? e = some c

/-- A syntax for the literals of JSON: its quotes and codes are the same, and whatever JSON does not
escape can stand for itself, unless it begins an expression. -/
structure HoldsJson (g : StringSyntax) : Prop where
  quote : g.quote = '"'
  code : g.code? = fourDigits?
  opens : ∀ c next, g.opens c next = true →
    ∃ d, next = some d ∧ escapeChar c = [c] ∧ escapeChar d = [d]
  forbids : ∀ c : Char, 0x20 ≤ c.toNat → g.forbids c = false

variable {g : StringSyntax}

/-- A literal is read in one way. -/
lemma ReadAs.unique {literal : String} {r r' : List Char → Reading} (h : g.ReadAs literal r)
    (h' : g.ReadAs literal r') : r = r' := Reading.unique h h'

lemma opens_cons_iff {c : Char} {s : List Char} :
    g.Opens (c :: s) ↔ (∃ d, s.head? = some d ∧ g.opens c (some d) = true) ∨ g.Opens s := by
  have hhead : ∀ d, [d] <+: s ↔ s.head? = some d := by
    intro d
    cases s with
    | nil => simp
    | cons e s => simp [List.cons_prefix_cons, eq_comm]
  simp only [Opens, List.infix_cons_iff, List.cons_prefix_cons, hhead]
  constructor
  · rintro ⟨c', d, hopens, ⟨rfl, hd⟩ | hpair⟩
    · exact Or.inl ⟨d, hd, hopens⟩
    · exact Or.inr ⟨c', d, hopens, hpair⟩
  · rintro (⟨d, hd, hopens⟩ | ⟨c', d, hopens, hpair⟩)
    · exact ⟨c, d, hopens, Or.inl ⟨rfl, hd⟩⟩
    · exact ⟨c', d, hopens, Or.inr hpair⟩

lemma mem_shortEscapes_iff {c e : Char} : (c, e) ∈ shortEscapes ↔ escapeChar c = ['\\', e] := by
  constructor
  · have hall : ∀ p ∈ shortEscapes, escapeChar p.1 = ['\\', p.2] := by decide
    exact hall (c, e)
  · intro h
    unfold escapeChar at h
    split_ifs at h with hc hc hc hc hc hc hc
    all_goals cases h
    all_goals
      rw [hc]
      decide

lemma knows_iff {c : Char} :
    g.Knows c ↔ ∀ p ∈ shortEscapes, p.1 = c → g.letter? p.2 = some c := by
  constructor
  · rintro h ⟨c, e⟩ hp rfl
    exact h e (mem_shortEscapes_iff.mp hp)
  · intro h e he
    exact h (c, e) (mem_shortEscapes_iff.mpr he) rfl

/-- A syntax with all letters of JSON knows every character. -/
lemma knows_of_letters (h : ∀ p ∈ shortEscapes, g.letter? p.2 = some p.1) (c : Char) :
    g.Knows c := by
  rw [knows_iff]
  rintro p hp rfl
  exact h p hp

/-- What begins with a character that is not escaped was written for that character. -/
lemma eq_of_head?_escapeChar {c d : Char} {cs : List Char} (hd : escapeChar d = [d])
    (h : (escapeChar c ++ cs).head? = some d) : c = d := by
  have hbackslash : escapeChar '\\' ≠ ['\\'] := by decide
  have hwritten := written_escapeChar c
  generalize escapeChar c = written at hwritten h
  cases hwritten with
  | short letter _ _ =>
    rw [← Option.some.inj h] at hd
    exact absurd hd hbackslash
  | code _ =>
    rw [← Option.some.inj h] at hd
    exact absurd hd hbackslash
  | plain _ _ _ => exact Option.some.inj h

lemma not_opens_nil : ¬g.Opens [] := by
  rintro ⟨c, d, -, hpair⟩
  simp at hpair

section Json

variable (hg : g.HoldsJson)

include hg

lemma read_quote (cs : List Char) : g.read 0 ('"' :: cs) = .text [] cs := by
  rw [read, if_pos hg.quote.symm]

lemma read_backslash (cs : List Char) : g.read 0 ('\\' :: cs) =
    match g.escape? cs with
    | some (d, n) => (g.read n cs).cons d
    | none => .refused := by
  have hquote : '\\' ≠ g.quote := by
    rw [hg.quote]
    decide
  rw [read, if_neg hquote, if_pos rfl]

lemma read_letter {e : Char} (he : e ≠ 'u') (cs : List Char) :
    g.read 0 ('\\' :: e :: cs) =
      match g.letter? e with
      | some d => (g.read 0 cs).cons d
      | none => .refused := by
  rw [read_backslash hg, escape?, if_neg he]
  cases g.letter? e <;> rfl

/-- The code of a control character is read as that. -/
lemma read_control {c : Char} (hc : c.toNat < 0x20) (cs : List Char) :
    g.read 0 (['\\', 'u', '0', '0', (c.toNat / 16).digitChar, (c.toNat % 16).digitChar] ++ cs) =
      (g.read 0 cs).cons c := by
  have hvalid : c.toNat.isValidChar := Or.inl (by omega)
  have hescape : ∀ a b, g.escape? ('u' :: '0' :: '0' :: a :: b :: cs) =
      (fourDigits? ('0' :: '0' :: a :: b :: cs)).map fun (c, n) => (c, n + 1) := by
    intro a b
    rw [escape?, if_pos rfl, hg.code]
  simp only [List.cons_append, List.nil_append]
  rw [read_backslash hg, hescape, fourDigits?, hex4?_control hc]
  simp only [Option.bind_eq_bind, Option.bind_some, if_pos hvalid, Option.map_some,
    Char.ofNat_toNat]
  rfl

/-- A character that is not escaped stands for itself or begins an expression. -/
lemma read_plain {c : Char} (hquote : c ≠ '"') (hbackslash : c ≠ '\\') (hc : 0x20 ≤ c.toNat)
    (cs : List Char) : g.read 0 (c :: cs) =
      if g.opens c cs.head? then .expression else (g.read 0 cs).cons c := by
  rw [read, if_neg (hg.quote ▸ hquote), if_neg hbackslash, hg.forbids c hc]
  simp only [Bool.false_eq_true, if_false]

/-- A character and its escaped follower begin an expression just if they would do so as
they are. -/
lemma opens_head?_iff {c : Char} {s rest : List Char} :
    g.opens c (s.flatMap escapeChar ++ '"' :: rest).head? = true ↔
      ∃ d, s.head? = some d ∧ g.opens c (some d) = true := by
  cases s with
  | nil =>
    have hquote : escapeChar '"' ≠ ['"'] := by decide
    constructor
    · intro h
      obtain ⟨d, hd, -, hplain⟩ := hg.opens _ _ h
      rw [← Option.some.inj hd] at hplain
      exact absurd hplain hquote
    · rintro ⟨d, hd, -⟩
      cases hd
  | cons e s =>
    rw [List.flatMap_cons, List.append_assoc]
    constructor
    · intro h
      obtain ⟨d, hd, -, hplain⟩ := hg.opens _ _ h
      refine ⟨e, rfl, ?_⟩
      rw [eq_of_head?_escapeChar hplain hd, ← hd]
      exact h
    · rintro ⟨d, hd, h⟩
      obtain ⟨d', hd', -, hplain⟩ := hg.opens _ _ h
      obtain rfl := Option.some.inj hd
      obtain rfl := Option.some.inj hd'
      rw [hplain]
      exact h

/-- A known character stands for itself, escaped or not, or begins an expression. -/
lemma read_escapeChar {c : Char} (hknows : g.Knows c) (cs : List Char) :
    g.read 0 (escapeChar c ++ cs) =
      if g.opens c cs.head? then .expression else (g.read 0 cs).cons c := by
  have hescaped : escapeChar c ≠ [c] → g.opens c cs.head? = false := by
    intro hne
    rw [← Bool.not_eq_true]
    intro h
    obtain ⟨d, -, hplain, -⟩ := hg.opens _ _ h
    exact hne hplain
  have hwritten := written_escapeChar c
  unfold Knows at hknows
  generalize escapeChar c = written at hwritten hknows hescaped ⊢
  cases hwritten with
  | short e hread _ =>
    have hu : e ≠ 'u' := fun hu => by rw [hu] at hread; cases hread
    rw [hescaped (by simp), List.cons_append, List.singleton_append, read_letter hg hu,
      hknows e rfl]
    rfl
  | code hc =>
    rw [hescaped (by simp), read_control hg hc]
    rfl
  | plain hquote hbackslash hc => exact read_plain hg hquote hbackslash hc cs

lemma knows_of_read {c : Char} {cs s rest : List Char}
    (h : g.read 0 (escapeChar c ++ cs) = .text (c :: s) rest) : g.Knows c := by
  intro e he
  have hu : e ≠ 'u' := by
    have hwritten := written_escapeChar c
    rw [he] at hwritten
    cases hwritten with
    | short _ hread _ => exact fun hu => by rw [hu] at hread; cases hread
  rw [he, List.cons_append, List.singleton_append, read_letter hg hu] at h
  cases hletter : g.letter? e with
  | none =>
    rw [hletter] at h
    cases h
  | some d =>
    rw [hletter] at h
    rw [(Reading.cons_eq_text_iff.mp h).1]

/-- A text of known characters is read as it is, unless something in it begins an expression. -/
theorem read_escaped {s : List Char} (hknows : ∀ c ∈ s, g.Knows c) (rest : List Char) :
    (¬g.Opens s → g.read 0 (s.flatMap escapeChar ++ '"' :: rest) = .text s rest) ∧
      (g.Opens s → g.read 0 (s.flatMap escapeChar ++ '"' :: rest) = .expression) := by
  induction s with
  | nil => exact ⟨fun _ => read_quote hg rest, fun h => absurd h not_opens_nil⟩
  | cons c s ih =>
    obtain ⟨hc, hs⟩ := List.forall_mem_cons.mp hknows
    obtain ⟨hplain, hopens⟩ := ih hs
    rw [List.flatMap_cons, List.append_assoc, opens_cons_iff, ← opens_head?_iff hg,
      read_escapeChar hg hc]
    constructor
    · intro h
      obtain ⟨hfirst, hrest⟩ := not_or.mp h
      rw [if_neg hfirst, hplain hrest]
      rfl
    · intro h
      by_cases hfirst : g.opens c (s.flatMap escapeChar ++ '"' :: rest).head? = true
      · rw [if_pos hfirst]
      · rw [if_neg hfirst, hopens (h.resolve_left hfirst)]
        rfl

lemma knows_of_read_escaped {s rest : List Char}
    (h : g.read 0 (s.flatMap escapeChar ++ '"' :: rest) = .text s rest) :
    ∀ c ∈ s, g.Knows c := by
  induction s with
  | nil => exact List.forall_mem_nil _
  | cons c s ih =>
    rw [List.flatMap_cons, List.append_assoc] at h
    have hc := knows_of_read hg h
    rw [read_escapeChar hg hc] at h
    split at h
    · cases h
    · exact List.forall_mem_cons.mpr ⟨hc, ih (Reading.cons_eq_text_iff.mp h).2⟩

lemma readAs_quoted_iff (s : String) (result : List Char → Reading) :
    g.ReadAs (quoted s) result ↔
      ∀ rest, g.read 0 (s.toList.flatMap escapeChar ++ '"' :: rest) = result rest := by
  have hbody : (quoted s).toList = g.quote :: (s.toList.flatMap escapeChar ++ ['"']) := by
    rw [toList_quoted, hg.quote]
  constructor
  · rintro ⟨body, hliteral, hread⟩ rest
    obtain ⟨-, rfl⟩ := List.cons.inj (hbody.symm.trans hliteral)
    simpa only [List.append_assoc, List.singleton_append] using hread rest
  · intro hread
    refine ⟨_, hbody, fun rest => ?_⟩
    simpa only [List.append_assoc, List.singleton_append] using hread rest

/-- The literal that JSON writes for a text denotes it just if all its escapes are known and
nothing in it begins an expression. -/
theorem denotes_quoted_iff (s : String) :
    g.Denotes (quoted s) s ↔ (∀ c ∈ s.toList, g.Knows c) ∧ ¬g.Opens s.toList := by
  rw [Denotes, readAs_quoted_iff hg]
  constructor
  · intro hread
    have hknows := knows_of_read_escaped hg (hread [])
    refine ⟨hknows, fun hopens => ?_⟩
    have hexpression := (read_escaped hg hknows []).2 hopens
    rw [hread []] at hexpression
    cases hexpression
  · rintro ⟨hknows, hopens⟩ rest
    exact (read_escaped hg hknows rest).1 hopens

/-- Where all escapes are known, it begins an expression just if something in the text does. -/
theorem evaluates_quoted_iff {s : String} (hknows : ∀ c ∈ s.toList, g.Knows c) :
    g.Evaluates (quoted s) ↔ g.Opens s.toList := by
  rw [Evaluates, readAs_quoted_iff hg]
  constructor
  · intro hread
    by_contra hopens
    have htext := (read_escaped hg hknows []).1 hopens
    rw [hread []] at htext
    cases htext
  · intro hopens rest
    exact (read_escaped hg hknows rest).2 hopens

end Json

/-! Whole texts with literals in them. -/

/-- What the literals of a text denote, in order. -/
inductive Texts (g : StringSyntax) : List Char → List String → Prop
  | done {cs : List Char} : g.quote ∉ cs → g.Texts cs []
  | next {gap cs rest : List Char} {s : String} {ss : List String} : g.quote ∉ gap →
      g.read 0 cs = .text s.toList rest → g.Texts rest ss →
      g.Texts (gap ++ g.quote :: cs) (s :: ss)

/-- Whether an expression begins in some literal of a text. -/
inductive Runs (g : StringSyntax) : List Char → Prop
  | here {gap cs : List Char} : g.quote ∉ gap → g.read 0 cs = .expression →
      g.Runs (gap ++ g.quote :: cs)
  | later {gap cs s rest : List Char} :
      g.quote ∉ gap → g.read 0 cs = .text s rest → g.Runs rest →
      g.Runs (gap ++ g.quote :: cs)

lemma Texts.behind {gap cs : List Char} {ss : List String} (hgap : g.quote ∉ gap)
    (h : g.Texts cs ss) : g.Texts (gap ++ cs) ss := by
  cases h with
  | done hcs => exact .done (by simp [hgap, hcs])
  | next hgap' hread hrest =>
    rw [← List.append_assoc]
    exact .next (by simp [hgap, hgap']) hread hrest

lemma Runs.behind {gap cs : List Char} (hgap : g.quote ∉ gap) (h : g.Runs cs) :
    g.Runs (gap ++ cs) := by
  cases h with
  | here hgap' hread =>
    rw [← List.append_assoc]
    exact .here (by simp [hgap, hgap']) hread
  | later hgap' hread hrest =>
    rw [← List.append_assoc]
    exact .later (by simp [hgap, hgap']) hread hrest

/-- The first quote of a text is where it is. -/
lemma eq_of_append_quote {q : Char} {gap gap' cs cs' : List Char} (hgap : q ∉ gap)
    (hgap' : q ∉ gap') (h : gap ++ q :: cs = gap' ++ q :: cs') : cs = cs' := by
  induction gap generalizing gap' with
  | nil =>
    cases gap' with
    | nil => exact (List.cons.inj h).2
    | cons c gap' => exact absurd (List.cons.inj h).1 (List.ne_of_not_mem_cons hgap')
  | cons c gap ih =>
    cases gap' with
    | nil => exact absurd (List.cons.inj h).1.symm (List.ne_of_not_mem_cons hgap)
    | cons c' gap' =>
      exact ih (List.not_mem_of_not_mem_cons hgap) (List.not_mem_of_not_mem_cons hgap')
        (List.cons.inj h).2

/-- What is read as texts runs nothing. -/
lemma Texts.not_runs {cs : List Char} {ss : List String} (h : g.Texts cs ss) : ¬g.Runs cs := by
  induction h with
  | done hcs =>
    intro hruns
    cases hruns <;> simp at hcs
  | @next gap cs rest s ss hgap hread _ ih =>
    intro hruns
    generalize htext : gap ++ g.quote :: cs = text at hruns
    cases hruns with
    | here hgap' hread' =>
      rw [eq_of_append_quote hgap hgap' htext, hread'] at hread
      cases hread
    | later hgap' hread' hrest =>
      rw [eq_of_append_quote hgap hgap' htext, hread'] at hread
      obtain ⟨-, rfl⟩ := Reading.text.inj hread
      exact ih hrest

end StringSyntax

/-- A text in which the literals of JSON for these texts stand, in this order, and no other
quotes. -/
inductive HasLiterals : String → List String → Prop
  | plain {t : String} : '"' ∉ t.toList → HasLiterals t []
  | literal (s : String) : HasLiterals (quoted s) [s]
  | append {a b : String} {ss ts : List String} : HasLiterals a ss → HasLiterals b ts →
      HasLiterals (a ++ b) (ss ++ ts)

namespace HasLiterals

lemma after {a b : String} {ss : List String} (ha : '"' ∉ a.toList) (h : HasLiterals b ss) :
    HasLiterals (a ++ b) ss := (plain ha).append h

lemma before {a b : String} {ss : List String} (h : HasLiterals a ss) (hb : '"' ∉ b.toList) :
    HasLiterals (a ++ b) ss := by
  have hall := h.append (plain hb)
  rwa [List.append_nil] at hall

variable {α : Type} {write : α → String} {texts : α → List String}

lemma intercalate {sep : String} (hsep : '"' ∉ sep.toList) {xs : List α}
    (h : ∀ x ∈ xs, HasLiterals (write x) (texts x)) :
    HasLiterals (sep.intercalate (xs.map write)) (xs.flatMap texts) := by
  induction xs with
  | nil => exact .plain (by simp)
  | cons x xs ih =>
    obtain ⟨hx, hxs⟩ := List.forall_mem_cons.mp h
    cases xs with
    | nil => simpa using hx
    | cons y ys =>
      rw [List.map_cons, List.map_cons, String.intercalate_cons_cons, ← List.map_cons,
        List.flatMap_cons]
      exact (hx.before hsep).append (ih hxs)

section Reading

variable {g : StringSyntax} {t : String} {ss : List String}

lemma texts_append (h : HasLiterals t ss) (hg : g.HoldsJson)
    (hdenotes : ∀ s ∈ ss, g.Denotes (quoted s) s) {rest : List Char} {ts : List String}
    (hrest : g.Texts rest ts) : g.Texts (t.toList ++ rest) (ss ++ ts) := by
  induction h generalizing rest ts with
  | plain ht => exact hrest.behind (hg.quote ▸ ht)
  | literal s =>
    obtain ⟨body, hbody, hread⟩ := hdenotes s (List.mem_singleton_self s)
    rw [hbody]
    exact .next (List.not_mem_nil : g.quote ∉ []) (hread rest) hrest
  | append _ _ iha ihb =>
    obtain ⟨ha, hb⟩ := List.forall_mem_append.mp hdenotes
    rw [String.toList_append, List.append_assoc, List.append_assoc]
    exact iha ha (ihb hb hrest)

lemma runs_append (h : HasLiterals t ss) (hg : g.HoldsJson)
    (hread : ∀ s ∈ ss, g.Denotes (quoted s) s ∨ g.Evaluates (quoted s)) {rest : List Char}
    (hruns : (∃ s ∈ ss, g.Evaluates (quoted s)) ∨ g.Runs rest) :
    g.Runs (t.toList ++ rest) := by
  induction h generalizing rest with
  | plain ht =>
    obtain ⟨s, hs, -⟩ | hrest := hruns
    · exact absurd hs List.not_mem_nil
    · exact hrest.behind (hg.quote ▸ ht)
  | literal s =>
    have hnil : g.quote ∉ [] := List.not_mem_nil
    have hevaluates : g.Evaluates (quoted s) → g.Runs ((quoted s).toList ++ rest) := by
      rintro ⟨body, hbody, hexpression⟩
      rw [hbody]
      exact .here hnil (hexpression rest)
    obtain ⟨s', hs', hexpression⟩ | hrest := hruns
    · rw [List.mem_singleton.mp hs'] at hexpression
      exact hevaluates hexpression
    · obtain ⟨body, hbody, htext⟩ | hexpression := hread s (List.mem_singleton_self s)
      · rw [hbody]
        exact .later hnil (htext rest) hrest
      · exact hevaluates hexpression
  | append _ _ iha ihb =>
    obtain ⟨ha, hb⟩ := List.forall_mem_append.mp hread
    rw [String.toList_append, List.append_assoc]
    apply iha ha
    obtain ⟨s, hs, hexpression⟩ | hrest := hruns
    · rcases List.mem_append.mp hs with hs | hs
      · exact Or.inl ⟨s, hs, hexpression⟩
      · exact Or.inr (ihb hb (Or.inl ⟨s, hs, hexpression⟩))
    · exact Or.inr (ihb hb (Or.inr hrest))

/-- If all escapes are known, the literals of a text are read as what they were written for just
if no expression begins in any of them. -/
theorem texts_iff_and_runs_iff (h : HasLiterals t ss) (hg : g.HoldsJson)
    (hknows : ∀ s ∈ ss, ∀ c ∈ s.toList, g.Knows c) :
    (g.Texts t.toList ss ↔ ∀ s ∈ ss, ¬g.Opens s.toList) ∧
      (g.Runs t.toList ↔ ∃ s ∈ ss, g.Opens s.toList) := by
  have hdenotes : ∀ s ∈ ss, ¬g.Opens s.toList → g.Denotes (quoted s) s := fun s hs hopens =>
    (StringSyntax.denotes_quoted_iff hg s).mpr ⟨hknows s hs, hopens⟩
  have hevaluates : ∀ s ∈ ss, g.Opens s.toList → g.Evaluates (quoted s) := fun s hs =>
    (StringSyntax.evaluates_quoted_iff hg (hknows s hs)).mpr
  have htexts : (∀ s ∈ ss, ¬g.Opens s.toList) → g.Texts t.toList ss := by
    intro hclosed
    have hall := h.texts_append hg (fun s hs => hdenotes s hs (hclosed s hs))
      (.done (List.not_mem_nil : g.quote ∉ []))
    rwa [List.append_nil, List.append_nil] at hall
  have hruns : (∃ s ∈ ss, g.Opens s.toList) → g.Runs t.toList := by
    rintro ⟨s, hs, hopens⟩
    have hread : ∀ s ∈ ss, g.Denotes (quoted s) s ∨ g.Evaluates (quoted s) := by
      intro s hs
      by_cases hopens : g.Opens s.toList
      · exact Or.inr (hevaluates s hs hopens)
      · exact Or.inl (hdenotes s hs hopens)
    have hall : g.Runs (t.toList ++ []) :=
      h.runs_append hg hread (Or.inl ⟨s, hs, hevaluates s hs hopens⟩)
    rwa [List.append_nil] at hall
  constructor
  · refine ⟨fun hread s hs hopens => ?_, htexts⟩
    exact hread.not_runs (hruns ⟨s, hs, hopens⟩)
  · refine ⟨fun hrun => ?_, hruns⟩
    by_contra hnone
    push Not at hnone
    exact (htexts hnone).not_runs hrun

end Reading

end HasLiterals

end SampleTypes.Target
