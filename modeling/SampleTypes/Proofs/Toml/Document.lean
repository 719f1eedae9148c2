import SampleTypes.Proofs.Toml.Line

/-! Documents of lines. A text whose lines are documents by themselves says what they say, one
line after the other. -/
namespace SampleTypes.Toml

/-- What a text says. -/
def statementsOf? (cs : List Char) : Option (List Statement) := readStatements (cs.length + 1) cs

/-- A line without its end, and that end. -/
structure Line where
  text : List Char
  ending : List Char

def IsLineEnd (ending : List Char) : Prop := ending = ['\n'] ∨ ending = ['\r', '\n']

/-- Lines of a text. The last one need not end. -/
inductive AreLines : List Line → Prop
  | nil : AreLines []
  | last {text : List Char} (htext : IsInLine text) : AreLines [⟨text, []⟩]
  | cons {line : Line} {lines : List Line} (htext : IsInLine line.text)
      (hending : IsLineEnd line.ending) (hlines : AreLines lines) : AreLines (line :: lines)

def textOf (lines : List Line) : List Char := lines.flatMap fun line => line.text ++ line.ending

/-- A line with nothing but blanks or a comment, with the header of a table, or with an entry. -/
inductive IsSimple (line : List Char) : Prop
  | empty (h : statementsOf? line = some [])
  | header (path : List String) (h : statementsOf? line = some [.header path])
  | entry (path : List String) (value : Value) (h : statementsOf? line = some [.assign path value])

/-- What a simple line says. -/
def statement? (line : List Char) : Option Statement := (statementsOf? line).bind List.head?

variable {cs rest ending next : List Char} {c : Char}

lemma IsLineEnd.breaks (h : IsLineEnd ending) (next : List Char) : Breaks (ending ++ next) := by
  rcases h with rfl | rfl
  · exact ⟨'\n', next, rfl, .inl rfl⟩
  · exact ⟨'\r', '\n' :: next, rfl, .inr rfl⟩

/-! Ends of lines. -/

lemma skipLines_ending (h : IsLineEnd ending) (inComment : Bool) (next : List Char) :
    skipLines inComment (ending ++ next) = skipLines false next := by
  rcases h with rfl | rfl
  · simp [skipLines_cons]
  · rw [List.cons_append, List.cons_append, List.nil_append, skipLines]

/-- From a line that means nothing the next one is reached. -/
lemma skipLines_append (hending : IsLineEnd ending) (hcs : IsInLine cs) {inComment : Bool}
    (h : skipLines inComment cs = []) (next : List Char) :
    skipLines inComment (cs ++ (ending ++ next)) = skipLines false next := by
  induction cs generalizing inComment with
  | nil => exact skipLines_ending hending inComment next
  | cons c cs ih =>
    obtain ⟨hfeed, hreturn⟩ := hcs.head_ne
    rw [skipLines_cons hreturn, if_neg hfeed] at h
    rw [List.cons_append, skipLines_cons hreturn, if_neg hfeed]
    split_ifs at h ⊢
    · exact ih hcs.behind h
    · exact ih hcs.behind h
    · exact ih hcs.behind h

lemma endOfLine_append (hending : IsLineEnd ending) (hcs : IsInLine cs)
    (h : endOfLine cs = some rest) (next : List Char) :
    rest <:+ cs ∧ ∃ rest', endOfLine (cs ++ (ending ++ next)) = some rest' ∧
      skipLines false rest' = skipLines false (rest ++ (ending ++ next)) := by
  have hspace := skipSpace_append (hending.breaks next) cs
  have hsuffix := skipSpace_suffix cs
  have hline := hcs.of_suffix hsuffix
  unfold endOfLine at h
  split at h
  next hempty =>
    obtain rfl := Option.some.inj h
    refine ⟨List.nil_suffix, next, ?_, (skipLines_ending hending false next).symm⟩
    rw [hempty, List.nil_append] at hspace
    rw [endOfLine, hspace]
    rcases hending with rfl | rfl <;> rfl
  next comment hcomment =>
    obtain rfl := Option.some.inj h
    refine ⟨hcomment ▸ hsuffix, '#' :: (comment ++ (ending ++ next)), ?_, rfl⟩
    rw [endOfLine, hspace, hcomment]
    rfl
  next hfeed =>
    rw [hfeed] at hline
    exact absurd rfl hline.head_ne.1
  next hreturn =>
    rw [hreturn] at hline
    exact absurd rfl hline.head_ne.2
  · cases h

/-! Statements. -/

/-- Two brackets begin the header of a row, one the header of a table, and anything else
an entry. -/
lemma readStatement_eq_some_iff {statement : Statement} :
    readStatement cs = some (statement, rest) ↔
      (∃ inner path after, cs = '[' :: '[' :: inner ∧
        readKey maxDepth (skipSpace inner) = some (path, ']' :: ']' :: after) ∧
          endOfLine after = some rest ∧ statement = .rowHeader path) ∨
      (∃ inner path after, cs = '[' :: inner ∧ ¬ ['['] <+: inner ∧
        readKey maxDepth (skipSpace inner) = some (path, ']' :: after) ∧
          endOfLine after = some rest ∧ statement = .header path) ∨
      (¬ ['['] <+: cs ∧ ∃ path value after,
        readPair skipSpace (readValue maxDepth) cs = some ((path, value), after) ∧
          endOfLine after = some rest ∧ statement = .assign path value) := by
  have hmap : ∀ {s : Statement} {after : List Char},
      (endOfLine after).map (s, ·) = some (statement, rest) ↔
        endOfLine after = some rest ∧ statement = s := by
    intro s after
    cases endOfLine after <;> simp [eq_comm, and_comm]
  constructor
  · intro h
    unfold readStatement at h
    split at h
    next inner =>
      split at h
      next path after hkey =>
        exact .inl ⟨inner, path, after, rfl, hkey, hmap.mp h⟩
      · cases h
    next inner hopen =>
      split at h
      next path after hkey =>
        refine .inr (.inl ⟨inner, path, after, rfl, ?_, hkey, hmap.mp h⟩)
        rintro ⟨more, hmore⟩
        exact hopen more hmore.symm
      · cases h
    next hopen =>
      split at h
      next path value after hpair =>
        refine .inr (.inr ⟨?_, path, value, after, hpair, hmap.mp h⟩)
        rintro ⟨more, hmore⟩
        exact hopen more hmore.symm
      · cases h
  · rintro (⟨inner, path, after, rfl, hkey, h⟩ | ⟨inner, path, after, rfl, hopen, hkey, h⟩ |
      ⟨hopen, path, value, after, hpair, h⟩)
    · rw [readStatement, hkey]
      exact hmap.mpr h
    · rw [readStatement, hkey]
      · exact hmap.mpr h
      · exact fun more hmore => hopen ⟨more, hmore.symm⟩
    · rw [readStatement, hpair]
      · exact hmap.mpr h
      · exact fun more hmore => hopen ⟨'[' :: more, hmore.symm⟩
      · exact fun more hmore => hopen ⟨more, hmore.symm⟩

lemma readStatement_append {statement : Statement} (hending : IsLineEnd ending) (hcs : IsInLine cs)
    (h : readStatement cs = some (statement, rest)) (next : List Char) :
    rest <:+ cs ∧ ∃ rest', readStatement (cs ++ (ending ++ next)) = some (statement, rest') ∧
      skipLines false rest' = skipLines false (rest ++ (ending ++ next)) := by
  have htail := hending.breaks next
  rcases readStatement_eq_some_iff.mp h with ⟨inner, path, after, rfl, hkey, hend, rfl⟩ |
    ⟨inner, path, after, rfl, hopen, hkey, hend, rfl⟩ |
      ⟨hopen, path, value, after, hpair, hend, rfl⟩
  · have hinner : skipSpace inner <:+ '[' :: '[' :: inner :=
      (skipSpace_suffix inner).trans ⟨['[', '['], rfl⟩
    obtain ⟨hkeySuffix, hkeyAppend⟩ :=
      staysInLine_readKey maxDepth _ _ _ (hcs.of_suffix hinner) hkey
    have hafter := ((List.suffix_append [']', ']'] after).trans hkeySuffix).trans hinner
    obtain ⟨hrest, rest', hread, hskip⟩ :=
      endOfLine_append hending (hcs.of_suffix hafter) hend next
    refine ⟨hrest.trans hafter, rest', readStatement_eq_some_iff.mpr (.inl ?_), hskip⟩
    exact ⟨inner ++ (ending ++ next), path, _, rfl,
      skipSpace_append htail inner ▸ hkeyAppend _ htail, hread, rfl⟩
  · have hinner : skipSpace inner <:+ '[' :: inner :=
      (skipSpace_suffix inner).trans (List.suffix_cons ..)
    obtain ⟨hkeySuffix, hkeyAppend⟩ :=
      staysInLine_readKey maxDepth _ _ _ (hcs.of_suffix hinner) hkey
    have hafter := ((List.suffix_cons ..).trans hkeySuffix).trans hinner
    obtain ⟨hrest, rest', hread, hskip⟩ :=
      endOfLine_append hending (hcs.of_suffix hafter) hend next
    refine ⟨hrest.trans hafter, rest', readStatement_eq_some_iff.mpr (.inr (.inl ?_)), hskip⟩
    exact ⟨inner ++ (ending ++ next), path, _, rfl,
      fun h => hopen (isPrefix_of_append_breaks _ (by decide) htail h),
      skipSpace_append htail inner ▸ hkeyAppend _ htail, hread, rfl⟩
  · obtain ⟨hafter, happend⟩ := staysInLine_readPair skipsInLine_skipSpace
      (staysInLine_readValue maxDepth) (readValue_nil maxDepth) _ _ _ hcs hpair
    obtain ⟨hrest, rest', hread, hskip⟩ :=
      endOfLine_append hending (hcs.of_suffix hafter) hend next
    refine ⟨hrest.trans hafter, rest', readStatement_eq_some_iff.mpr (.inr (.inr ?_)), hskip⟩
    exact ⟨fun h => hopen (isPrefix_of_append_breaks _ (by decide) htail h), path, value, _,
      happend _ htail, hread, rfl⟩

/-- Nothing is left that means something, or a statement is read first. -/
lemma readStatements_succ_eq_some_iff {fuel : Nat} {statements : List Statement} :
    readStatements (fuel + 1) cs = some statements ↔
      skipLines false cs = [] ∧ statements = [] ∨
        ∃ statement rest more, readStatement (skipLines false cs) = some (statement, rest) ∧
          readStatements fuel rest = some more ∧ statements = statement :: more := by
  rw [readStatements]
  constructor
  · intro h
    split at h
    next hempty => exact .inl ⟨hempty, (Option.some.inj h).symm⟩
    · split at h
      · cases h
      next statement rest hread =>
        obtain ⟨more, hmore, rfl⟩ := Option.map_eq_some_iff.mp h
        exact .inr ⟨statement, rest, more, hread, hmore, rfl⟩
  · rintro (⟨hempty, rfl⟩ | ⟨statement, rest, more, hread, hmore, rfl⟩)
    · rw [hempty]
    · split
      next hempty =>
        rw [hempty] at hread
        cases hread
      · simp only [hread, hmore, Option.map_some]

/-- Statements do not tell what stands before them that means nothing. -/
lemma readStatements_congr {cs' : List Char} (h : skipLines false cs = skipLines false cs')
    (fuel : Nat) : readStatements fuel cs = readStatements fuel cs' := by
  cases fuel with
  | zero => rfl
  | succ fuel =>
    refine Option.ext fun statements => ?_
    rw [readStatements_succ_eq_some_iff, readStatements_succ_eq_some_iff, h]

lemma readStatements_mono {fuel fuel' : Nat} {statements : List Statement}
    (h : readStatements fuel cs = some statements) (hle : fuel ≤ fuel') :
    readStatements fuel' cs = some statements := by
  induction fuel generalizing cs statements fuel' with
  | zero => cases h
  | succ fuel ih =>
    obtain - | fuel' := fuel'
    · omega
    refine readStatements_succ_eq_some_iff.mpr ?_
    rcases readStatements_succ_eq_some_iff.mp h with
      hempty | ⟨statement, rest, more, hread, hmore, rfl⟩
    · exact .inl hempty
    · exact .inr ⟨statement, rest, more, hread, ih hmore (by omega), rfl⟩

/-- A line is read before what follows it. -/
lemma readStatements_append {fuel fuel' : Nat} {statements more : List Statement}
    (hending : IsLineEnd ending) (hcs : IsInLine cs)
    (hline : readStatements fuel cs = some statements)
    (hnext : readStatements fuel' next = some more) :
    readStatements (fuel + fuel') (cs ++ (ending ++ next)) = some (statements ++ more) := by
  induction fuel generalizing cs statements with
  | zero => cases hline
  | succ fuel ih =>
    rcases readStatements_succ_eq_some_iff.mp hline with
      ⟨hempty, rfl⟩ | ⟨statement, rest, statements, hread, hstatements, rfl⟩
    · rw [readStatements_congr (skipLines_append hending hcs hempty next), List.nil_append]
      exact readStatements_mono hnext (by omega)
    · obtain ⟨hsuffix, happend⟩ := skipsInLine_skipLines false cs hcs
      have hne : skipLines false cs ≠ [] := by
        intro hempty
        rw [hempty] at hread
        cases hread
      obtain ⟨hrest, rest', hread', hskip⟩ :=
        readStatement_append hending (hcs.of_suffix hsuffix) hread next
      rw [← happend _ (hending.breaks next) hne] at hread'
      rw [Nat.add_right_comm]
      refine readStatements_succ_eq_some_iff.mpr (.inr ⟨statement, rest', _, hread', ?_, rfl⟩)
      rw [readStatements_congr hskip]
      exact ih (hcs.of_suffix (hrest.trans hsuffix)) hstatements

/-- An entry puts `value` under `path`, and behind `lead` the value is written as `token`. -/
def IsWritten (path : List String) (value : Value) (lead token trail line : List Char) : Prop :=
  line = lead ++ token ++ trail ∧ ∃ after behind,
    readKey maxDepth (skipLines false line) = some (path, after) ∧ skipSpace after = '=' :: behind ∧
      skipSpace behind = token ++ trail ∧ readValue maxDepth (token ++ trail) = some (value, trail)

lemma readPair_of_readStatement {path : List String} {value : Value}
    (h : readStatement cs = some (.assign path value, rest)) :
    ∃ trail, readPair skipSpace (readValue maxDepth) cs = some ((path, value), trail) := by
  rcases readStatement_eq_some_iff.mp h with ⟨_, _, _, -, -, -, heq⟩ | ⟨_, _, _, -, -, -, -, heq⟩ |
    ⟨-, _, _, after, hpair, -, heq⟩
  · cases heq
  · cases heq
  · cases heq
    exact ⟨after, hpair⟩

/-- An entry has its value on its line. -/
lemma exists_isWritten {line : List Char} (hline : IsInLine line) {path : List String}
    {value : Value} (h : statementsOf? line = some [.assign path value]) :
    ∃ lead token trail, IsWritten path value lead token trail line := by
  obtain ⟨hbegin, -⟩ := skipsInLine_skipLines false line hline
  obtain ⟨-, hnil⟩ | ⟨_, rest, _, hread, -, heq⟩ := readStatements_succ_eq_some_iff.mp h
  · cases hnil
  obtain rfl := (List.cons.inj heq).1
  obtain ⟨trail, hpair⟩ := readPair_of_readStatement hread
  obtain ⟨after, behind, hkey, hequals, hvalue⟩ := readPair_eq_some_iff.mp hpair
  have hbehind : behind <:+ line :=
    (List.suffix_cons ..).trans ((hequals ▸ skipSpace_suffix after).trans
      ((staysInLine_readKey _ _ _ _ (hline.of_suffix hbegin) hkey).1.trans hbegin))
  have hspace := (skipSpace_suffix behind).trans hbehind
  obtain ⟨token, htoken⟩ := (staysInLine_readValue _ _ _ _ (hline.of_suffix hspace) hvalue).1
  obtain ⟨lead, hlead⟩ := hspace
  refine ⟨lead, token, trail, ?_, after, behind, hkey, hequals, htoken.symm, htoken ▸ hvalue⟩
  rw [List.append_assoc, htoken, hlead]

/-! Documents. -/

lemma IsSimple.statementsOf?_eq {line : List Char} (h : IsSimple line) :
    statementsOf? line = some (statement? line).toList := by
  cases h with
  | empty h | header _ h | entry _ _ h => simp [statement?, h]

lemma AreLines.isInLine {lines : List Line} (h : AreLines lines) :
    ∀ line ∈ lines, IsInLine line.text := by
  induction h with
  | nil => simp
  | last htext => simpa using htext
  | cons htext _ _ ih => exact List.forall_mem_cons.mpr ⟨htext, ih⟩

/-- The lines of some texts, with a line feed after each. -/
def linesOf (texts : List String) : List Line := texts.map fun text => ⟨text.toList, ['\n']⟩

lemma areLines_linesOf {texts : List String} (h : ∀ text ∈ texts, IsInLine text.toList) :
    AreLines (linesOf texts) := by
  induction texts with
  | nil => exact .nil
  | cons text texts ih =>
    obtain ⟨htext, htexts⟩ := List.forall_mem_cons.mp h
    exact .cons htext (.inl rfl) (ih htexts)

lemma textOf_cons (line : Line) (lines : List Line) :
    textOf (line :: lines) = line.text ++ (line.ending ++ textOf lines) := by
  rw [textOf, List.flatMap_cons, List.append_assoc]
  rfl

lemma textOf_append (above : List Line) (line : Line) (below : List Line) :
    textOf (above ++ line :: below) =
      textOf above ++ line.text ++ (line.ending ++ textOf below) := by
  rw [textOf, List.flatMap_append, List.append_assoc, ← textOf_cons]
  rfl

/-- A document says what its lines say, in their order. -/
theorem statementsOf?_textOf {lines : List Line} (h : AreLines lines)
    (hsimple : ∀ line ∈ lines, IsSimple line.text) :
    statementsOf? (textOf lines) = some (lines.filterMap fun line => statement? line.text) := by
  induction h with
  | nil => rfl
  | @last text htext =>
    have hline := (hsimple _ (List.mem_singleton_self _)).statementsOf?_eq
    rw [textOf_cons, List.filterMap_cons]
    simp only [textOf, List.flatMap_nil, List.append_nil, hline]
    cases statement? text <;> rfl
  | @cons line lines htext hending _ ih =>
    obtain ⟨hline, hlines⟩ := List.forall_mem_cons.mp hsimple
    have hread := readStatements_append hending htext hline.statementsOf?_eq (ih hlines)
    have hlength : 1 ≤ line.ending.length := by
      rcases hending with h | h <;> simp [h]
    rw [textOf_cons, statementsOf?, readStatements_mono hread (by simp; omega), List.filterMap_cons]
    cases statement? line.text <;> rfl

/-- What says something does not begin with the mark of a byte order. -/
lemma dropMark_of_statementsOf? {statements : List Statement}
    (h : statementsOf? cs = some statements) : dropMark cs = cs := by
  unfold dropMark
  split
  next c cs =>
    by_cases hmark : c = '\ufeff'
    · subst hmark
      cases h
    · exact if_neg hmark
  · rfl

/-- What lines of a document say is carried out line by line. -/
theorem parse?_textOf {lines : List Line} (h : AreLines lines)
    (hsimple : ∀ line ∈ lines, IsSimple line.text) :
    parse? (.ofList (textOf lines)) =
      ((lines.filterMap fun line => statement? line.text).foldlM Progress.step {}).map
        fun p => closeEntries p.root := by
  have hstatements := statementsOf?_textOf h hsimple
  simp only [parse?, String.toList_ofList, dropMark_of_statementsOf? hstatements]
  rw [← statementsOf?, hstatements]

end SampleTypes.Toml
