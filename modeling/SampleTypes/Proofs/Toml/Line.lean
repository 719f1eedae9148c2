import Mathlib.Data.List.Basic
import Mathlib.Data.List.TakeDrop
import Mathlib.Data.List.TakeWhile
import SampleTypes.Toml.Document

/-! Lines of a document. What is read on one line is read the same whatever lines follow, so a
text whose lines each say something by themselves says all of it, one statement after the other. -/
namespace SampleTypes.Toml

/-- Neither a line feed nor a carriage return. -/
def IsInLine (cs : List Char) : Prop := '\n' ∉ cs ∧ '\r' ∉ cs

instance (cs : List Char) : Decidable (IsInLine cs) := inferInstanceAs (Decidable (_ ∧ _))

/-- A text that begins where a line ends. -/
def Breaks (tail : List Char) : Prop := ∃ c rest, tail = c :: rest ∧ (c = '\n' ∨ c = '\r')

/-- A reader that does not look beyond its line. -/
def StaysInLine {α : Type} (read : List Char → Option (α × List Char)) : Prop :=
  ∀ cs x rest, IsInLine cs → read cs = some (x, rest) →
    rest <:+ cs ∧ ∀ tail, Breaks tail → read (cs ++ tail) = some (x, rest ++ tail)

variable {cs rest tail : List Char} {c : Char}

lemma IsInLine.of_suffix (h : IsInLine cs) (hrest : rest <:+ cs) : IsInLine rest :=
  ⟨fun hmem => h.1 (hrest.subset hmem), fun hmem => h.2 (hrest.subset hmem)⟩

lemma IsInLine.behind (h : IsInLine (c :: cs)) : IsInLine cs := h.of_suffix (List.suffix_cons c cs)

lemma IsInLine.head_ne (h : IsInLine (c :: cs)) : c ≠ '\n' ∧ c ≠ '\r' :=
  ⟨fun hc => h.1 (by simp [hc]), fun hc => h.2 (by simp [hc])⟩

/-! Runs of characters. -/

section Runs

variable {p : Char → Bool} (hfeed : p '\n' = false) (hreturn : p '\r' = false) (htail : Breaks tail)

include hfeed hreturn htail

lemma dropWhile_append_breaks (cs : List Char) :
    (cs ++ tail).dropWhile p = cs.dropWhile p ++ tail := by
  obtain ⟨c, rest, rfl, hc⟩ := htail
  have hp : p c = false := by rcases hc with rfl | rfl <;> assumption
  induction cs with
  | nil => simp [hp]
  | cons d cs ih =>
    rw [List.cons_append, List.dropWhile_cons, List.dropWhile_cons, ih]
    split <;> rfl

lemma takeWhile_append_breaks (cs : List Char) : (cs ++ tail).takeWhile p = cs.takeWhile p := by
  obtain ⟨c, rest, rfl, hc⟩ := htail
  have hp : p c = false := by rcases hc with rfl | rfl <;> assumption
  induction cs with
  | nil => simp [hp]
  | cons d cs ih => rw [List.cons_append, List.takeWhile_cons, List.takeWhile_cons, ih]

end Runs

lemma skipSpace_append (htail : Breaks tail) (cs : List Char) :
    skipSpace (cs ++ tail) = skipSpace cs ++ tail :=
  dropWhile_append_breaks rfl rfl htail cs

lemma skipSpace_suffix (cs : List Char) : skipSpace cs <:+ cs := List.dropWhile_suffix _

/-! Strings. -/

lemma ne_of_shortEscape? {x : Char} (h : shortEscape? c = some x) :
    c ≠ 'x' ∧ c ≠ 'u' ∧ c ≠ 'U' := by
  refine ⟨?_, ?_, ?_⟩ <;> rintro rfl <;> simp [shortEscape?] at h

lemma readEscape_cons (hx : c ≠ 'x') (hu : c ≠ 'u') (hU : c ≠ 'U') (cs : List Char) :
    readEscape (c :: cs) = (shortEscape? c).map (·, cs) := by
  unfold readEscape
  split <;> simp_all

/-- An escape is over where it is over. -/
lemma readEscape_append {x : Char} (h : readEscape cs = some (x, rest)) :
    rest <:+ cs ∧ ∀ tail, readEscape (cs ++ tail) = some (x, rest ++ tail) := by
  unfold readEscape at h
  split at h
  case h_4 c cs _ _ _ =>
    obtain ⟨y, hy, heq⟩ := Option.map_eq_some_iff.mp h
    obtain ⟨rfl, rfl⟩ := Prod.mk.inj heq
    obtain ⟨hx, hu, hU⟩ := ne_of_shortEscape? hy
    exact ⟨List.suffix_cons .., fun tail => by simp [readEscape_cons hx hu hU, hy]⟩
  case h_5 => cases h
  all_goals
    obtain ⟨y, hy, heq⟩ := Option.map_eq_some_iff.mp h
    obtain ⟨rfl, rfl⟩ := Prod.mk.inj heq
    refine ⟨?_, fun tail => by simp [readEscape, hy]⟩
  · exact ⟨['x', _, _], rfl⟩
  · exact ⟨['u', _, _, _, _], rfl⟩
  · exact ⟨['U', _, _, _, _, _, _, _, _], rfl⟩

/-- Behind a backslash, what is read as an escape is not the end of a line. -/
lemma afterLineEnd_of_readEscape {x : Char} (h : readEscape cs = some (x, rest))
    (tail : List Char) : afterLineEnd false (cs ++ tail) = none := by
  obtain - | ⟨c, cs⟩ := cs
  · cases h
  have hblank : c ≠ '\n' ∧ c ≠ ' ' ∧ c ≠ '\t' ∧ c ≠ '\r' := by
    refine ⟨?_, ?_, ?_, ?_⟩ <;> rintro rfl <;> simp [readEscape, shortEscape?] at h
  unfold afterLineEnd
  split <;> simp_all

/-- What is made of a result only, is read where the result is. -/
lemma exists_of_map_eq_some {α β : Type} {f : α → β} {read : Option (α × List Char)} {y : β}
    (h : (read.map fun (x, rest) => (f x, rest)) = some (y, rest)) :
    ∃ x, read = some (x, rest) ∧ f x = y := by
  obtain ⟨⟨x, rest'⟩, hread, heq⟩ := Option.map_eq_some_iff.mp h
  obtain ⟨hy, rfl⟩ := Prod.mk.inj heq
  exact ⟨x, hread, hy⟩

lemma forall_le_of_succ {P : Nat → Prop} {n : Nat} (h : ∀ m, n ≤ m → P (m + 1)) :
    ∀ m, n + 1 ≤ m → P m := by
  rintro (_ | m) hle
  · omega
  · exact h m (by omega)

lemma readLineString_append {mark : Char} {escapes : Bool} {fuel : Nat} {s : List Char}
    (h : readLineString mark escapes fuel cs = some (s, rest)) :
    rest <:+ cs ∧ ∀ tail fuel', fuel ≤ fuel' →
      readLineString mark escapes fuel' (cs ++ tail) = some (s, rest ++ tail) := by
  induction fuel generalizing cs s rest with
  | zero => cases h
  | succ fuel ih =>
    obtain - | ⟨c, cs⟩ := cs
    · cases h
    rw [readLineString] at h
    suffices rest <:+ cs ∧ ∀ tail fuel', fuel ≤ fuel' →
        readLineString mark escapes (fuel' + 1) (c :: cs ++ tail) = some (s, rest ++ tail) from
      ⟨this.1.trans (List.suffix_cons ..), fun tail => forall_le_of_succ (this.2 tail)⟩
    simp only [List.cons_append, readLineString]
    split_ifs at h ⊢ with hmark hescape hplain
    · obtain ⟨rfl, rfl⟩ := Prod.mk.inj (Option.some.inj h)
      exact ⟨List.suffix_rfl, fun _ _ _ => rfl⟩
    · split at h
      · cases h
      next x after hread =>
        obtain ⟨t, hmore, rfl⟩ := exists_of_map_eq_some h
        obtain ⟨hsuffix, happend⟩ := readEscape_append hread
        obtain ⟨hrest, hih⟩ := ih hmore
        refine ⟨hrest.trans hsuffix, fun tail fuel' hle => ?_⟩
        simp only [happend tail, hih tail fuel' hle, Option.map_some]
    · obtain ⟨t, hmore, rfl⟩ := exists_of_map_eq_some h
      obtain ⟨hrest, hih⟩ := ih hmore
      exact ⟨hrest, fun tail fuel' hle => by rw [hih tail fuel' hle, Option.map_some]⟩

lemma afterLineEnd_of_isInLine (h : IsInLine cs) : afterLineEnd false cs = none := by
  induction cs with
  | nil => rfl
  | cons c cs ih =>
    have hc := h.head_ne
    have hcs := ih h.behind
    unfold afterLineEnd
    split <;> simp_all

lemma readBlockString_append {mark : Char} (hfeed : mark ≠ '\n') (hreturn : mark ≠ '\r')
    {escapes : Bool} {fuel : Nat} {s : List Char} (hcs : IsInLine cs)
    (h : readBlockString mark escapes fuel cs = some (s, rest)) :
    rest <:+ cs ∧ ∀ tail, Breaks tail → ∀ fuel', fuel ≤ fuel' →
      readBlockString mark escapes fuel' (cs ++ tail) = some (s, rest ++ tail) := by
  induction fuel generalizing cs s rest with
  | zero => cases h
  | succ fuel ih =>
    obtain - | ⟨c, cs⟩ := cs
    · cases h
    rw [readBlockString] at h
    suffices rest <:+ c :: cs ∧ ∀ tail, Breaks tail → ∀ fuel', fuel ≤ fuel' →
        readBlockString mark escapes (fuel' + 1) (c :: cs ++ tail) = some (s, rest ++ tail) from
      ⟨this.1, fun tail htail => forall_le_of_succ (this.2 tail htail)⟩
    have hgo : ∀ after t, after <:+ cs → readBlockString mark escapes fuel after = some (t, rest) →
        rest <:+ c :: cs ∧ ∀ tail, Breaks tail → ∀ fuel', fuel ≤ fuel' →
          readBlockString mark escapes fuel' (after ++ tail) = some (t, rest ++ tail) :=
      fun after t hafter hmore =>
        have ⟨hrest, hih⟩ := ih (hcs.behind.of_suffix hafter) hmore
        ⟨(hrest.trans hafter).trans (List.suffix_cons ..), hih⟩
    have hmarks : ∀ tail, Breaks tail →
        (c :: (cs ++ tail)).takeWhile (· = mark) = (c :: cs).takeWhile (· = mark) :=
      fun tail htail =>
      takeWhile_append_breaks (by simp [hfeed.symm]) (by simp [hreturn.symm]) htail (c :: cs)
    simp only [List.cons_append, readBlockString]
    by_cases hmark : c = mark
    · rw [if_pos hmark] at h
      by_cases hthree : 3 ≤ ((c :: cs).takeWhile (· = mark)).length
      · rw [if_pos hthree] at h
        obtain ⟨rfl, rfl⟩ := Prod.mk.inj (Option.some.inj h)
        refine ⟨List.drop_suffix .., fun tail htail fuel' hle => ?_⟩
        have hlength : ((c :: cs).takeWhile (· = mark)).length ≤ (c :: cs).length :=
          List.Sublist.length_le (List.takeWhile_sublist _)
        rw [if_pos hmark, hmarks tail htail, if_pos hthree, ← List.cons_append,
          List.drop_append_of_le_length (by omega)]
      · rw [if_neg hthree] at h
        obtain ⟨t, hmore, rfl⟩ := exists_of_map_eq_some h
        obtain ⟨hrest, hih⟩ := hgo cs t List.suffix_rfl hmore
        refine ⟨hrest, fun tail htail fuel' hle => ?_⟩
        rw [if_pos hmark, hmarks tail htail, if_neg hthree, hih tail htail fuel' hle,
          Option.map_some]
    · rw [if_neg hmark, afterLineEnd_of_isInLine hcs.behind] at h
      simp only [if_neg hmark]
      split_ifs at h with hescape hplain
      · dsimp only at h
        split at h
        · cases h
        next x after hread =>
          obtain ⟨t, hmore, rfl⟩ := exists_of_map_eq_some h
          obtain ⟨hsuffix, happend⟩ := readEscape_append hread
          obtain ⟨hrest, hih⟩ := hgo after t hsuffix hmore
          refine ⟨hrest, fun tail htail fuel' hle => ?_⟩
          simp only [if_pos hescape, afterLineEnd_of_readEscape hread, happend tail,
            hih tail htail fuel' hle, Option.map_some]
      · obtain ⟨t, hmore, rfl⟩ := exists_of_map_eq_some h
        obtain ⟨hrest, hih⟩ := hgo cs t List.suffix_rfl hmore
        obtain ⟨hfeed, hreturn⟩ := hcs.head_ne
        have hc : isPlain c = true := by simpa [hfeed, hreturn] using hplain
        refine ⟨hrest, fun tail htail fuel' hle => ?_⟩
        rw [if_neg hescape, if_pos (.inl hc), hih tail htail fuel' hle, Option.map_some]

/-- What stands on a line stands before its end. -/
lemma isPrefix_of_append_breaks (xs : List Char) (hxs : IsInLine xs) (htail : Breaks tail)
    (h : xs <+: cs ++ tail) : xs <+: cs := by
  obtain ⟨c, rest, rfl, hc⟩ := htail
  induction xs generalizing cs with
  | nil => exact List.nil_prefix
  | cons x xs ih =>
    obtain - | ⟨d, cs⟩ := cs
    · obtain ⟨rfl, -⟩ := List.cons_prefix_cons.mp h
      exact absurd hc (not_or.mpr hxs.head_ne)
    · obtain ⟨rfl, hrest⟩ := List.cons_prefix_cons.mp h
      exact List.cons_prefix_cons.mpr ⟨rfl, ih hxs.behind hrest⟩

lemma staysInLine_readKeyString : StaysInLine readKeyString := by
  intro cs x rest hcs h
  unfold readKeyString at h
  split at h
  case h_3 => cases h
  all_goals
    obtain ⟨s, hread, rfl⟩ := exists_of_map_eq_some h
    obtain ⟨hrest, happend⟩ := readLineString_append hread
    refine ⟨hrest.trans (List.suffix_cons ..), fun tail _ => ?_⟩
    rw [List.cons_append, readKeyString, happend tail _ (by simp), Option.map_some]

lemma dropLineEnd_of_isInLine (h : IsInLine cs) : dropLineEnd cs = cs := by
  unfold dropLineEnd
  split
  · exact absurd rfl h.head_ne.1
  · exact absurd rfl h.head_ne.2
  · rfl

lemma dropLineEnd_append (h : IsInLine cs) (hne : cs ≠ []) (tail : List Char) :
    dropLineEnd (cs ++ tail) = cs ++ tail := by
  obtain ⟨c, cs, rfl⟩ := List.exists_cons_of_ne_nil hne
  have hc := h.head_ne
  unfold dropLineEnd
  split <;> simp_all

/-- A string with three marks, behind those that open it. -/
lemma staysInLine_readBlockString {mark : Char} (hfeed : mark ≠ '\n') (hreturn : mark ≠ '\r')
    (escapes : Bool) : StaysInLine fun cs =>
      (readBlockString mark escapes (cs.length + 1) (dropLineEnd cs)).map fun (s, rest) =>
        (String.ofList s, rest) := by
  intro cs x rest hcs h
  obtain ⟨s, hread, rfl⟩ := exists_of_map_eq_some h
  rw [dropLineEnd_of_isInLine hcs] at hread
  obtain ⟨hrest, happend⟩ := readBlockString_append hfeed hreturn hcs hread
  have hne : cs ≠ [] := by
    rintro rfl
    cases hread
  refine ⟨hrest, fun tail htail => ?_⟩
  dsimp only
  rw [dropLineEnd_append hcs hne, happend tail htail _ (by simp), Option.map_some]

lemma staysInLine_readString : StaysInLine readString := by
  intro cs x rest hcs h
  unfold readString at h
  split at h
  · obtain ⟨hrest, happend⟩ := staysInLine_readBlockString (by decide) (by decide) true _ x rest
      hcs.behind.behind.behind h
    exact ⟨hrest.trans ⟨['"', '"', '"'], rfl⟩, happend⟩
  · obtain ⟨hrest, happend⟩ := staysInLine_readBlockString (by decide) (by decide) false _ x rest
      hcs.behind.behind.behind h
    exact ⟨hrest.trans ⟨['\'', '\'', '\''], rfl⟩, happend⟩
  next hquotes happostrophes =>
    obtain ⟨hrest, happend⟩ := staysInLine_readKeyString cs x rest hcs h
    refine ⟨hrest, fun tail htail => ?_⟩
    unfold readString
    split
    next after heq =>
      obtain ⟨after, rfl⟩ := isPrefix_of_append_breaks ['"', '"', '"'] (by decide) htail
        ⟨after, heq.symm⟩
      exact absurd rfl (hquotes after)
    next _ after heq =>
      obtain ⟨after, rfl⟩ := isPrefix_of_append_breaks ['\'', '\'', '\''] (by decide) htail
        ⟨after, heq.symm⟩
      exact absurd rfl (happostrophes after)
    · exact happend tail htail

/-! Words. -/

lemma goesOn_append (htail : Breaks tail) (cs : List Char) : goesOn (cs ++ tail) = goesOn cs := by
  rw [goesOn, goesOn, dropWhile_append_breaks rfl rfl htail]
  obtain ⟨c, rest, rfl, hc⟩ := htail
  cases cs.dropWhile isSpace with
  | nil => rcases hc with rfl | rfl <;> rfl
  | cons => rfl

lemma readWord_append (htail : Breaks tail) (cs : List Char) :
    readWord (cs ++ tail) = ((readWord cs).1, (readWord cs).2 ++ tail) := by
  induction cs with
  | nil =>
    obtain ⟨c, rest, rfl, rfl | rfl⟩ := htail <;> rfl
  | cons c cs ih =>
    rw [List.cons_append, readWord, readWord, goesOn_append htail, ih]
    split <;> rfl

lemma readWord_suffix (cs : List Char) : (readWord cs).2 <:+ cs := by
  induction cs with
  | nil => exact List.suffix_rfl
  | cons c cs ih =>
    rw [readWord]
    split
    · exact List.suffix_rfl
    · exact ih.trans (List.suffix_cons ..)

lemma staysInLine_readAtom : StaysInLine readAtom := by
  intro cs x rest hcs h
  obtain ⟨_, hatom, heq⟩ := Option.map_eq_some_iff.mp h
  obtain ⟨rfl, rfl⟩ := Prod.mk.inj heq
  refine ⟨readWord_suffix cs, fun tail htail => ?_⟩
  rw [readAtom, readWord_append htail]
  simp only [hatom, Option.map_some]

lemma staysInLine_readFlat : StaysInLine readFlat := by
  intro cs x rest hcs h
  have hne : cs ≠ [] := by
    rintro rfl
    cases h
  have hhead : ∀ tail, (cs ++ tail).head? = cs.head? := fun tail =>
    List.head?_append_of_ne_nil cs hne
  unfold readFlat at h ⊢
  simp only [hhead]
  by_cases hquote : cs.head? = some '"' ∨ cs.head? = some '\''
  · rw [if_pos hquote] at h
    obtain ⟨s, hread, rfl⟩ := exists_of_map_eq_some h
    obtain ⟨hrest, happend⟩ := staysInLine_readString _ _ _ hcs hread
    refine ⟨hrest, fun tail htail => ?_⟩
    rw [if_pos hquote, happend tail htail, Option.map_some]
  · rw [if_neg hquote] at h
    simp only [if_neg hquote]
    exact staysInLine_readAtom _ _ _ hcs h

/-! Keys and pairs. -/

lemma readKeyPart_eq (cs : List Char) : readKeyPart cs =
    if (cs.takeWhile isBareKeyChar).isEmpty then readKeyString cs
    else some (.ofList (cs.takeWhile isBareKeyChar), cs.dropWhile isBareKeyChar) := by
  rw [readKeyPart, List.span_eq_takeWhile_dropWhile]

lemma staysInLine_readKeyPart : StaysInLine readKeyPart := by
  intro cs x rest hcs h
  have hbare : isBareKeyChar '\n' = false ∧ isBareKeyChar '\r' = false := by decide
  rw [readKeyPart_eq] at h
  split_ifs at h with hword
  · obtain ⟨hrest, happend⟩ := staysInLine_readKeyString _ _ _ hcs h
    refine ⟨hrest, fun tail htail => ?_⟩
    rw [readKeyPart_eq, takeWhile_append_breaks hbare.1 hbare.2 htail, if_pos hword,
      happend tail htail]
  · obtain ⟨rfl, rfl⟩ := Prod.mk.inj (Option.some.inj h)
    refine ⟨List.dropWhile_suffix _, fun tail htail => ?_⟩
    rw [readKeyPart_eq, takeWhile_append_breaks hbare.1 hbare.2 htail, if_neg hword,
      dropWhile_append_breaks hbare.1 hbare.2 htail]

lemma staysInLine_readKey (parts : Nat) : StaysInLine (readKey parts) := by
  induction parts with
  | zero => exact fun _ _ _ _ h => nomatch h
  | succ parts ih =>
    intro cs x rest hcs h
    rw [readKey] at h
    split at h
    · cases h
    next part after hpart =>
      obtain ⟨hafter, hpartAppend⟩ := staysInLine_readKeyPart _ _ _ hcs hpart
      have hspace : skipSpace after <:+ cs := (skipSpace_suffix _).trans hafter
      split at h
      next more hdot =>
        obtain ⟨⟨path, rest'⟩, hmore, heq⟩ := Option.map_eq_some_iff.mp h
        obtain ⟨rfl, rfl⟩ := Prod.mk.inj heq
        rw [hdot] at hspace
        have hmoreSuffix : skipSpace more <:+ cs :=
          (skipSpace_suffix _).trans ((List.suffix_cons ..).trans hspace)
        obtain ⟨hrest, happend⟩ := ih _ _ _ (hcs.of_suffix hmoreSuffix) hmore
        refine ⟨hrest.trans hmoreSuffix, fun tail htail => ?_⟩
        rw [readKey, hpartAppend tail htail]
        simp only [skipSpace_append htail, hdot, List.cons_append, happend tail htail,
          Option.map_some]
      next hnodot =>
        obtain ⟨rfl, rfl⟩ := Prod.mk.inj (Option.some.inj h)
        refine ⟨hspace, fun tail htail => ?_⟩
        rw [readKey, hpartAppend tail htail]
        simp only [skipSpace_append htail]
        split
        next more hdot =>
          obtain ⟨more, hmore⟩ := isPrefix_of_append_breaks ['.'] (by decide) htail
            ⟨more, hdot.symm⟩
          exact absurd hmore.symm (hnodot more)
        · rfl

/-- A way to pass over what means nothing that does not look beyond its line. -/
def SkipsInLine (skip : List Char → List Char) : Prop :=
  ∀ cs, IsInLine cs → skip cs <:+ cs ∧ ∀ tail, Breaks tail → skip cs ≠ [] →
    skip (cs ++ tail) = skip cs ++ tail

lemma skipsInLine_skipSpace : SkipsInLine skipSpace := fun cs _ =>
  ⟨skipSpace_suffix cs, fun _ htail _ => skipSpace_append htail cs⟩

lemma skipLines_cons (hc : c ≠ '\r') (inComment : Bool) (cs : List Char) :
    skipLines inComment (c :: cs) =
      if c = '\n' then skipLines false cs
      else if inComment then if isPlain c then skipLines true cs else c :: cs
      else if c = ' ' ∨ c = '\t' then skipLines false cs
      else if c = '#' then skipLines true cs
      else c :: cs := by
  rw [skipLines]
  exact fun cs' hcr _ => hc hcr

/-- What does not mean nothing is found whatever follows the line. -/
lemma skipsInLine_skipLines (inComment : Bool) : SkipsInLine (skipLines inComment) := by
  intro cs
  induction cs generalizing inComment with
  | nil => exact fun _ => ⟨by simp [skipLines], fun _ _ h => absurd (by rw [skipLines]) h⟩
  | cons c cs ih =>
    intro hcs
    obtain ⟨hfeed, hreturn⟩ := hcs.head_ne
    have hbehind : ∀ inComment, skipLines inComment cs <:+ c :: cs := fun inComment =>
      (ih inComment hcs.behind).1.trans (List.suffix_cons ..)
    simp only [List.cons_append, skipLines_cons hreturn, if_neg hfeed]
    split_ifs
    · exact ⟨hbehind true, (ih true hcs.behind).2⟩
    · exact ⟨List.suffix_rfl, fun _ _ _ => rfl⟩
    · exact ⟨hbehind false, (ih false hcs.behind).2⟩
    · exact ⟨hbehind true, (ih true hcs.behind).2⟩
    · exact ⟨List.suffix_rfl, fun _ _ _ => rfl⟩

lemma readPair_eq_some_iff {skip : List Char → List Char}
    {value : List Char → Option (Value × List Char)} {path : List String} {v : Value} :
    readPair skip value cs = some ((path, v), rest) ↔ ∃ after behind,
      readKey maxDepth cs = some (path, after) ∧ skip after = '=' :: behind ∧
        value (skip behind) = some (v, rest) := by
  constructor
  · intro h
    unfold readPair at h
    split at h
    · cases h
    next path' after hkey =>
      split at h
      next behind hequals =>
        obtain ⟨_, hvalue, heq⟩ := exists_of_map_eq_some h
        obtain ⟨rfl, rfl⟩ := Prod.mk.inj heq
        exact ⟨after, behind, hkey, hequals, hvalue⟩
      · cases h
  · rintro ⟨after, behind, hkey, hequals, hvalue⟩
    rw [readPair, hkey]
    simp only [hequals, hvalue, Option.map_some]

lemma staysInLine_readPair {skip : List Char → List Char} (hskip : SkipsInLine skip)
    {value : List Char → Option (Value × List Char)} (hvalue : StaysInLine value)
    (hnil : value [] = none) : StaysInLine (readPair skip value) := by
  rintro cs ⟨path, v⟩ rest hcs h
  obtain ⟨after, behind, hkey, hequals, hread⟩ := readPair_eq_some_iff.mp h
  obtain ⟨hafter, hkeyAppend⟩ := staysInLine_readKey _ _ _ _ hcs hkey
  obtain ⟨hskipped, hskipAppend⟩ := hskip after (hcs.of_suffix hafter)
  have hbehind : behind <:+ cs := (List.suffix_cons ..).trans ((hequals ▸ hskipped).trans hafter)
  obtain ⟨hvalueSuffix, hvalueSkip⟩ := hskip behind (hcs.of_suffix hbehind)
  have hne : skip behind ≠ [] := by
    intro hempty
    rw [hempty, hnil] at hread
    cases hread
  obtain ⟨hrest, happend⟩ := hvalue _ _ _ (hcs.of_suffix (hvalueSuffix.trans hbehind)) hread
  refine ⟨hrest.trans (hvalueSuffix.trans hbehind), fun tail htail => ?_⟩
  refine readPair_eq_some_iff.mpr ⟨after ++ tail, behind ++ tail, hkeyAppend tail htail, ?_, ?_⟩
  · rw [hskipAppend tail htail (by simp [hequals]), hequals, List.cons_append]
  · rw [hvalueSkip tail htail hne, happend tail htail]

/-! Values. -/

/-- What is read first is the closing character, or an item behind which the closing character
stands or a comma and more. -/
lemma readItems_succ_eq_some_iff {α : Type} {item : List Char → Option (α × List Char)}
    {close : Char} {fuel : Nat} {xs : List α} :
    readItems item close (fuel + 1) cs = some (xs, rest) ↔ ∃ c behind,
      skipLines false cs = c :: behind ∧
        (c = close ∧ xs = [] ∧ rest = behind ∨
          c ≠ close ∧ ∃ x after d more, item (c :: behind) = some (x, after) ∧
            skipLines false after = d :: more ∧
            (d = ',' ∧ (∃ ys, readItems item close fuel more = some (ys, rest) ∧ xs = x :: ys) ∨
              d ≠ ',' ∧ d = close ∧ xs = [x] ∧ rest = more)) := by
  constructor
  · intro h
    rw [readItems] at h
    split at h
    · cases h
    next c behind hc =>
      refine ⟨c, behind, hc, ?_⟩
      split_ifs at h with hclose
      · obtain ⟨rfl, rfl⟩ := Prod.mk.inj (Option.some.inj h)
        exact .inl ⟨hclose, rfl, rfl⟩
      · refine .inr ⟨hclose, ?_⟩
        split at h
        · cases h
        next x after hx =>
          split at h
          · cases h
          next d more hd =>
            refine ⟨x, after, d, more, hx, hd, ?_⟩
            split_ifs at h with hcomma hdclose
            · obtain ⟨ys, hys, rfl⟩ := exists_of_map_eq_some h
              exact .inl ⟨hcomma, ys, hys, rfl⟩
            · obtain ⟨rfl, rfl⟩ := Prod.mk.inj (Option.some.inj h)
              exact .inr ⟨hcomma, hdclose, rfl, rfl⟩
  · rintro ⟨c, behind, hc, ⟨rfl, rfl, rfl⟩ | ⟨hclose, x, after, d, more, hx, hd, h⟩⟩
    · rw [readItems, hc]
      exact if_pos rfl
    · rw [readItems, hc]
      simp only [if_neg hclose, hx, hd]
      rcases h with ⟨rfl, ys, hys, rfl⟩ | ⟨hcomma, rfl, rfl, rfl⟩
      · rw [if_pos rfl, hys, Option.map_some]
      · rw [if_neg hcomma, if_pos rfl]

lemma readItems_append {α : Type} {item : List Char → Option (α × List Char)}
    (hitem : StaysInLine item) {close : Char} {fuel : Nat} {xs : List α} (hcs : IsInLine cs)
    (h : readItems item close fuel cs = some (xs, rest)) :
    rest <:+ cs ∧ ∀ tail, Breaks tail → ∀ fuel', fuel ≤ fuel' →
      readItems item close fuel' (cs ++ tail) = some (xs, rest ++ tail) := by
  induction fuel generalizing cs xs rest with
  | zero => cases h
  | succ fuel ih =>
    suffices rest <:+ cs ∧ ∀ tail, Breaks tail → ∀ fuel', fuel ≤ fuel' →
        readItems item close (fuel' + 1) (cs ++ tail) = some (xs, rest ++ tail) from
      ⟨this.1, fun tail htail => forall_le_of_succ (this.2 tail htail)⟩
    obtain ⟨c, behind, hc, h⟩ := readItems_succ_eq_some_iff.mp h
    obtain ⟨hbegin, hbeginAppend⟩ := skipsInLine_skipLines false cs hcs
    rw [hc] at hbegin hbeginAppend
    have hskip : ∀ tail, Breaks tail → skipLines false (cs ++ tail) = c :: (behind ++ tail) :=
      fun tail htail => hbeginAppend tail htail (by simp)
    rcases h with ⟨hclose, rfl, rfl⟩ | ⟨hclose, x, after, d, more, hx, hd, h⟩
    · refine ⟨(List.suffix_cons ..).trans hbegin, fun tail htail fuel' _ => ?_⟩
      exact readItems_succ_eq_some_iff.mpr ⟨c, _, hskip tail htail, .inl ⟨hclose, rfl, rfl⟩⟩
    · obtain ⟨hafter, hxAppend⟩ := hitem _ _ _ (hcs.of_suffix hbegin) hx
      have hafter := hafter.trans hbegin
      obtain ⟨hend, hendAppend⟩ := skipsInLine_skipLines false after (hcs.of_suffix hafter)
      rw [hd] at hend hendAppend
      have hmore : more <:+ cs := (List.suffix_cons ..).trans (hend.trans hafter)
      rcases h with ⟨hcomma, ys, hys, rfl⟩ | ⟨hcomma, hdclose, rfl, rfl⟩
      · obtain ⟨hrest, happend⟩ := ih (hcs.of_suffix hmore) hys
        refine ⟨hrest.trans hmore, fun tail htail fuel' hle => ?_⟩
        exact readItems_succ_eq_some_iff.mpr ⟨c, _, hskip tail htail, .inr ⟨hclose, x, _, d, _,
          hxAppend tail htail, hendAppend tail htail (by simp),
          .inl ⟨hcomma, ys, happend tail htail fuel' hle, rfl⟩⟩⟩
      · refine ⟨hmore, fun tail htail fuel' _ => ?_⟩
        exact readItems_succ_eq_some_iff.mpr ⟨c, _, hskip tail htail, .inr ⟨hclose, x, _, d, _,
          hxAppend tail htail, hendAppend tail htail (by simp),
          .inr ⟨hcomma, hdclose, rfl, rfl⟩⟩⟩

lemma readValue_nil (depth : Nat) : readValue depth [] = none := by
  cases depth <;> rfl

lemma readValue_cons (hopen : c ≠ '[') (hbrace : c ≠ '\x7b') (depth : Nat) (cs : List Char) :
    readValue (depth + 1) (c :: cs) = readFlat (c :: cs) := by
  rw [readValue]
  · exact fun _ h => hopen (List.cons.inj h).1
  · exact fun _ h => hbrace (List.cons.inj h).1

lemma staysInLine_readValue (depth : Nat) : StaysInLine (readValue depth) := by
  induction depth with
  | zero => exact staysInLine_readFlat
  | succ depth ih =>
    intro cs x rest hcs h
    obtain - | ⟨c, cs⟩ := cs
    · cases h
    have hpair : StaysInLine (readPair (skipLines false) (readValue depth)) :=
      staysInLine_readPair (skipsInLine_skipLines false) ih (readValue_nil depth)
    by_cases hopen : c = '['
    · subst hopen
      obtain ⟨items, hitems, rfl⟩ := exists_of_map_eq_some h
      obtain ⟨hrest, happend⟩ := readItems_append ih hcs.behind hitems
      refine ⟨hrest.trans (List.suffix_cons ..), fun tail htail => ?_⟩
      rw [List.cons_append, readValue, happend tail htail _ (by simp), Option.map_some]
    by_cases hbrace : c = '\x7b'
    · subst hbrace
      rw [readValue] at h
      split at h
      · cases h
      next pairs after hpairs =>
        obtain ⟨entries, hentries, heq⟩ := Option.map_eq_some_iff.mp h
        obtain ⟨rfl, rfl⟩ := Prod.mk.inj heq
        obtain ⟨hrest, happend⟩ := readItems_append hpair hcs.behind hpairs
        refine ⟨hrest.trans (List.suffix_cons ..), fun tail htail => ?_⟩
        rw [List.cons_append, readValue, happend tail htail _ (by simp)]
        simp only [hentries, Option.map_some]
    · rw [readValue_cons hopen hbrace] at h
      obtain ⟨hrest, happend⟩ := staysInLine_readFlat _ _ _ hcs h
      refine ⟨hrest, fun tail htail => ?_⟩
      rw [List.cons_append, readValue_cons hopen hbrace, ← List.cons_append, happend tail htail]

end SampleTypes.Toml
