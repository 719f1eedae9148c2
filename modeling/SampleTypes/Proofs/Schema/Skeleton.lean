import Mathlib.Tactic.Common
import SampleTypes.Generate

/-! What type definitions depend on: the keys of a sample in their order, the types of its scalars
and the first items of its arrays. No text, number or truth value, and no later item, shows in
them. -/
namespace SampleTypes

open Target

namespace Json

/-- A value that is no array or object. -/
def IsScalar : Json → Prop
  | array _ | object _ => False
  | _ => True

/-- Values with one skeleton. Objects have the same keys in the same order, scalars are of one
type, and of two arrays only the first items are compared. -/
inductive SameSkeleton : Json → Json → Prop
  | scalar {v w : Json} (hv : v.IsScalar) (hw : w.IsScalar)
      (htype : FieldType.ofScalar v = FieldType.ofScalar w) : SameSkeleton v w
  | noItems : SameSkeleton (array []) (array [])
  | items {v w : Json} (hfirst : SameSkeleton v w) (vs ws : List Json) :
      SameSkeleton (array (v :: vs)) (array (w :: ws))
  | noMembers : SameSkeleton (object []) (object [])
  | members {v w : Json} {ms ns : Members} (key : String) (hvalue : SameSkeleton v w)
      (hrest : SameSkeleton (object ms) (object ns)) :
      SameSkeleton (object ((key, v) :: ms)) (object ((key, w) :: ns))

end Json

open Json

namespace FieldType

lemma ofItem_of_isScalar {v : Json} (h : v.IsScalar) (name : String) :
    ofItem name v = ofScalar v := by
  cases v with
  | array items => exact h.elim
  | object members => exact h.elim
  | _ => rfl

lemma ofMember_of_isScalar {v : Json} (h : v.IsScalar) (scope : NameScope)
    (enclosing key : String) : ofMember scope enclosing key v = ofScalar v := by
  cases v with
  | array items => exact h.elim
  | object members => exact h.elim
  | _ => rfl

/-- The type of an item shows its skeleton only. -/
lemma ofItem_eq_of_sameSkeleton {v w : Json} (h : SameSkeleton v w) (name : String) :
    ofItem name v = ofItem name w := by
  induction h with
  | scalar hv hw htype => rw [ofItem_of_isScalar hv, ofItem_of_isScalar hw, htype]
  | noItems => rfl
  | items hfirst vs ws ih => exact congrArg list ih
  | noMembers => rfl
  | members key hvalue hrest ihvalue ihrest => rfl

lemma ofMember_eq_of_sameSkeleton {v w : Json} (h : SameSkeleton v w) (scope : NameScope)
    (enclosing key : String) : ofMember scope enclosing key v = ofMember scope enclosing key w := by
  cases h with
  | scalar hv hw htype => rw [ofMember_of_isScalar hv, ofMember_of_isScalar hw, htype]
  | noItems => rfl
  | items hfirst vs ws => exact congrArg list (ofItem_eq_of_sameSkeleton hfirst _)
  | noMembers => rfl
  | members key hvalue hrest => rfl

end FieldType

namespace Outline

lemma ofValue_of_isScalar {v : Json} (h : v.IsScalar) (scope : NameScope) (name : String) :
    ofValue scope name v = [] := by
  cases v with
  | array items => exact h.elim
  | object members => exact h.elim
  | _ => rfl

lemma ofValue_object (scope : NameScope) (name : String) (ms : Members) :
    ofValue scope name (.object ms) = [ofObject scope name ms] := rfl

lemma ofObject_eq_iff {scope : NameScope} {name : String} {ms ns : Members} :
    ofObject scope name ms = ofObject scope name ns ↔
      Schema.ofMembers scope name ms = Schema.ofMembers scope name ns ∧
        ofMembers scope name ms = ofMembers scope name ns := by
  simp only [ofObject, node.injEq]

/-- One more member adds one more field, and what the field refers to. -/
lemma ofObject_cons_eq {scope : NameScope} {name key : String} {v w : Json} {ms ns : Members}
    (htype : FieldType.ofMember scope name key v = FieldType.ofMember scope name key w)
    (hvalue : ∀ record, ofValue scope record v = ofValue scope record w)
    (hrest : ofObject scope name ms = ofObject scope name ns) :
    ofObject scope name ((key, v) :: ms) = ofObject scope name ((key, w) :: ns) := by
  obtain ⟨hschema, hnested⟩ := ofObject_eq_iff.mp hrest
  refine ofObject_eq_iff.mpr ⟨?_, ?_⟩
  · simp only [Schema.ofMembers, Schema.mk.injEq, true_and, List.map_cons] at hschema ⊢
    rw [htype, hschema]
  · rw [ofMembers, ofMembers, htype, hnested]
    simp only [hvalue]

/-- The schemas at and below a value show its skeleton only. -/
lemma ofValue_eq_of_sameSkeleton {v w : Json} (h : SameSkeleton v w) (scope : NameScope)
    (name : String) : ofValue scope name v = ofValue scope name w := by
  induction h generalizing name with
  | scalar hv hw htype => rw [ofValue_of_isScalar hv, ofValue_of_isScalar hw]
  | noItems => rfl
  | items hfirst vs ws ih => exact ih name
  | noMembers => rfl
  | members key hvalue hrest ihvalue ihrest =>
    simp only [ofValue_object, List.cons.injEq, and_true] at ihrest ⊢
    exact ofObject_cons_eq (FieldType.ofMember_eq_of_sameSkeleton hvalue scope name key) ihvalue
      (ihrest name)

theorem ofObject_eq_of_sameSkeleton {ms ns : Members} (h : SameSkeleton (.object ms) (.object ns))
    (scope : NameScope) (name : String) : ofObject scope name ms = ofObject scope name ns := by
  have hvalue := ofValue_eq_of_sameSkeleton h scope name
  simpa only [ofValue_object, List.cons.injEq, and_true] using hvalue

end Outline

lemma Language.exists_source {l : Language} (h : l.hasTypes = true) :
    ∃ source, l.rendering = .definitions source := by
  cases l with
  | python => contradiction
  | javaScript => contradiction
  | php => contradiction
  | ruby => contradiction
  | _ => exact ⟨_, rfl⟩

/-- Samples whose objects have one skeleton become the same text in every language of types. -/
theorem generate_eq_of_sameSkeleton {l : Language} (hl : l.hasTypes = true) {sample sample' : Json}
    {object object' : Members} (hobject : sample.described? = some object)
    (hobject' : sample'.described? = some object')
    (hskeleton : SameSkeleton (.object object) (.object object')) (root : String) (camel : Bool) :
    l.generate sample root camel = l.generate sample' root camel := by
  obtain ⟨source, hsource⟩ := Language.exists_source hl
  have houtline := Outline.ofObject_eq_of_sameSkeleton hskeleton l.scope (Name.type root)
  simp only [Language.generate, hsource, hobject, hobject', houtline]

/-- A list of orders, and one order with other texts, counts and later lines. -/
theorem generate_eq_of_sameSkeleton_orders :
    let line (count : Int) : Json := .object [("count", .number (.int count)), ("tags", .array [])]
    let order : Members :=
      [("id", .string "a"), ("paid", .bool true), ("lines", .array [line 1, line 2]),
        ("note", .null)]
    let order' : Members :=
      [("id", .string "\n"), ("paid", .bool false), ("lines", .array [line (-7)]), ("note", .null)]
    let orders : Json := .array [.object order, .string "and more"]
    (Language.dart.hasTypes = true ∧ orders.described? = some order ∧
      (Json.object order').described? = some order' ∧
      SameSkeleton (.object order) (.object order')) ∧
      Language.dart.generate orders "order" true =
        Language.dart.generate (.object order') "order" true := by
  intro line order order' orders
  have hline : SameSkeleton (line 1) (line (-7)) :=
    .members _ (.scalar trivial trivial rfl) (.members _ .noItems .noMembers)
  have hskeleton : SameSkeleton (.object order) (.object order') :=
    .members _ (.scalar trivial trivial rfl) <| .members _ (.scalar trivial trivial rfl) <|
      .members _ (.items hline _ _) <| .members _ (.scalar trivial trivial rfl) .noMembers
  exact ⟨⟨rfl, rfl, rfl, hskeleton⟩,
    generate_eq_of_sameSkeleton rfl rfl rfl hskeleton "order" true⟩

end SampleTypes
