import SampleTypes.Proofs.Json.Quoted
import SampleTypes.Proofs.Schema
import SampleTypes.Target.Tokens

/-! What is written in a line of code stands on one line: quoted keys, and the spelling of types. -/
namespace SampleTypes

open Text

lemma Json.oneLine_quoted (s : String) : OneLine (quoted s) := by
  intro c hc
  have hprintable := quoted_printable s c hc
  constructor
  · rintro rfl
    exact absurd hprintable (by decide)
  · rintro rfl
    exact absurd hprintable (by decide)

namespace Target

namespace Tokens

/-- Whether plain types are spelled on one line. -/
structure KeepsLines (t : Tokens) : Prop where
  scalars : ∀ s ∈ [t.any, t.bool, t.int, t.float, t.string], OneLine s
  list : ∀ element, OneLine element → OneLine (t.list element)
  record : ∀ name, OneLine name → OneLine (t.record name)
  boxed : ∀ type s, t.boxed type = some s → OneLine s

lemma KeepsLines.spell {t : Tokens} (h : t.KeepsLines) {type : FieldType} (htype : type.Plain) :
    OneLine (t.spell type) := by
  have hscalar := h.scalars
  simp only [List.mem_cons, List.not_mem_nil, or_false, forall_eq_or_imp, forall_eq] at hscalar
  induction type with
  | any => exact hscalar.1
  | bool => exact hscalar.2.1
  | int => exact hscalar.2.2.1
  | float => exact hscalar.2.2.2.1
  | string => exact hscalar.2.2.2.2
  | list element ih =>
    rw [Tokens.spell]
    refine h.list _ ?_
    cases hboxed : t.boxed element with
    | none => exact ih htype
    | some s => exact h.boxed element s hboxed
  | record name => exact h.record name (htype name rfl)

lemma KeepsLines.spellElement {t : Tokens} (h : t.KeepsLines) {type : FieldType}
    (htype : type.Plain) : OneLine (t.spellElement type) := by
  rw [Tokens.spellElement]
  cases hboxed : t.boxed type with
  | none => exact h.spell htype
  | some s => exact h.boxed type s hboxed

lemma oneLine_generic {head element : String} (hhead : OneLine head) (h : OneLine element) :
    OneLine (generic head element) := by
  simp only [generic, oneLine_append]
  exact ⟨⟨⟨hhead, by decide⟩, h⟩, by decide⟩

lemma keepsLines_objectiveC : objectiveC.KeepsLines where
  scalars := by decide
  list element h := by
    simp only [objectiveC]
    split
    · decide
    · exact (oneLine_append _ _).mpr ⟨(oneLine_append _ _).mpr ⟨by decide, h⟩, by decide⟩
  record _ h := (oneLine_append _ _).mpr ⟨h, by decide⟩
  boxed _ _ h := nomatch h

lemma keepsLines_swift : swift.KeepsLines where
  scalars := by decide
  list element h := by
    simp only [swift, inBrackets, oneLine_append]
    exact ⟨⟨by decide, h⟩, by decide⟩
  record _ h := h
  boxed _ _ h := nomatch h

lemma keepsLines_java : java.KeepsLines where
  scalars := by decide
  list _ h := oneLine_generic (by decide) h
  record _ h := h
  boxed type s h := by
    cases type with
    | bool => rw [← Option.some.inj h]; decide
    | int => rw [← Option.some.inj h]; decide
    | float => rw [← Option.some.inj h]; decide
    | _ => exact nomatch h

lemma keepsLines_kotlin : kotlin.KeepsLines where
  scalars := by decide
  list _ h := oneLine_generic (by decide) h
  record _ h := h
  boxed _ _ h := nomatch h

lemma keepsLines_typeScript : typeScript.KeepsLines where
  scalars := by decide
  list _ h := (oneLine_append _ _).mpr ⟨h, by decide⟩
  record _ h := h
  boxed _ _ h := nomatch h

lemma keepsLines_go : go.KeepsLines where
  scalars := by decide
  list _ h := (oneLine_append _ _).mpr ⟨by decide, h⟩
  record _ h := h
  boxed _ _ h := nomatch h

lemma keepsLines_rust : rust.KeepsLines where
  scalars := by decide
  list _ h := oneLine_generic (by decide) h
  record _ h := h
  boxed type s h := by
    cases type with
    | any => rw [← Option.some.inj h]; decide
    | _ => exact nomatch h

lemma keepsLines_cSharp : cSharp.KeepsLines where
  scalars := by decide
  list _ h := oneLine_generic (by decide) h
  record _ h := h
  boxed _ _ h := nomatch h

lemma keepsLines_dart : dart.KeepsLines where
  scalars := by decide
  list _ h := oneLine_generic (by decide) h
  record _ h := h
  boxed _ _ h := nomatch h

end Tokens

end Target

end SampleTypes
