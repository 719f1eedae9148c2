import SampleTypes.Proofs.Name
import SampleTypes.Target.Convention

/-! The characters of property names. A name in snake case has letters, digits and underscores
only, and under every convention the name of a key on one line stands on one line. -/
namespace SampleTypes.Target

open Text

/-- What holds of an underscore and of the characters that stand for those of the snake case holds
of all in a name in snake case. -/
lemma forall_mem_snakeWord {p : Char → Prop} {key : String} (hunderscore : p '_')
    (hsnake : ∀ c ∈ (Name.snakeCase key).toList, p (wordChar c)) :
    ∀ d ∈ (snakeWord key).toList, p d := by
  have hmap : ∀ d ∈ (Name.snakeCase key).toList.map wordChar, p d := List.forall_mem_map.mpr hsnake
  rw [snakeWord]
  cases hcs : (Name.snakeCase key).toList.map wordChar with
  | nil => exact List.forall_mem_singleton.mpr hunderscore
  | cons c cs =>
    rw [hcs] at hmap
    simp only [String.toList_ofList]
    split_ifs
    · exact List.forall_mem_cons.mpr ⟨hunderscore, hmap⟩
    · exact hmap

/-- A name in snake case is made of letters, digits and underscores, whatever the key. -/
lemma mem_snakeWord {key : String} {d : Char} (h : d ∈ (snakeWord key).toList) :
    (d.isAlphanum || d = '_') = true := by
  have hword : ∀ c : Char, ((wordChar c).isAlphanum || wordChar c = '_') = true := by
    intro c
    rw [wordChar]
    split
    · next hc => simpa using hc
    · decide
  have hall : ∀ d ∈ (snakeWord key).toList, (d.isAlphanum || d = '_') = true :=
    forall_mem_snakeWord (by decide) fun c _ => hword c
  exact hall d h

namespace Convention

/-- Whether names of keys on one line stand on one line. -/
structure KeepsLines (c : Convention) : Prop where
  convert : ∀ (camel : Bool) (key : String), OneLine key → OneLine (c.convert camel key)
  escape : ∀ word, OneLine word → OneLine (c.escape word)

lemma KeepsLines.fieldName {c : Convention} (h : c.KeepsLines) (camel : Bool) {key : String}
    (hkey : OneLine key) : OneLine (c.fieldName camel key) := by
  have hword := h.convert camel key hkey
  rw [Convention.fieldName, safeName]
  split
  · exact h.escape _ hword
  · exact hword

lemma oneLine_inBackticks {word : String} (h : OneLine word) : OneLine (inBackticks word) := by
  simp only [inBackticks, oneLine_append]
  exact ⟨⟨by decide, h⟩, by decide⟩

lemma oneLine_addUnderscore {word : String} (h : OneLine word) : OneLine (addUnderscore word) :=
  (oneLine_append _ _).mpr ⟨h, by decide⟩

lemma oneLine_rawWord {word : String} (h : OneLine word) : OneLine (rawWord word) := by
  rw [rawWord]
  split
  · exact oneLine_addUnderscore h
  · exact (oneLine_append _ _).mpr ⟨by decide, h⟩

lemma oneLine_snakeWord (key : String) : OneLine (snakeWord key) := by
  intro c hc
  have hword := mem_snakeWord hc
  constructor
  · rintro rfl
    exact absurd hword (by decide)
  · rintro rfl
    exact absurd hword (by decide)

lemma keepsLines_objectiveC : objectiveC.KeepsLines :=
  ⟨fun camel _ h => Name.oneLine_property h camel, fun _ h => h⟩

lemma keepsLines_swift : swift.KeepsLines :=
  ⟨fun camel _ h => Name.oneLine_property h camel, fun _ h => oneLine_inBackticks h⟩

lemma keepsLines_kotlin : kotlin.KeepsLines :=
  ⟨fun camel _ h => Name.oneLine_property h camel, fun _ h => oneLine_inBackticks h⟩

lemma keepsLines_java : java.KeepsLines :=
  ⟨fun camel _ h => Name.oneLine_property h camel, fun _ h => oneLine_addUnderscore h⟩

lemma keepsLines_dart : dart.KeepsLines :=
  ⟨fun camel _ h => Name.oneLine_property h camel, fun _ h => oneLine_addUnderscore h⟩

lemma keepsLines_typeScript : typeScript.KeepsLines := ⟨fun _ _ h => h, fun _ h => h⟩

lemma keepsLines_go : go.KeepsLines :=
  ⟨fun camel _ h => Name.oneLine_capitalize (Name.oneLine_property h camel), fun _ h => h⟩

lemma keepsLines_cSharp : cSharp.KeepsLines :=
  ⟨fun camel _ h => Name.oneLine_capitalize (Name.oneLine_property h camel), fun _ h => h⟩

lemma keepsLines_rust : rust.KeepsLines := by
  refine ⟨fun camel key _ => ?_, fun _ h => oneLine_rawWord h⟩
  simp only [rust]
  exact oneLine_snakeWord key

end Convention

end SampleTypes.Target
