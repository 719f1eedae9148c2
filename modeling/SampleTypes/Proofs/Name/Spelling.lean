import Mathlib.Data.List.Basic
import SampleTypes.Proofs.Name

/-! Which keys become a given property name. Without camel case the first letter alone may differ
from the name. With it, separators may also stand before the words of the name, and then a word
may begin with a small letter. -/
namespace SampleTypes.Name

open Text

/-- A word of small ASCII letters. -/
def IsSmall (word : String) : Prop := word ≠ "" ∧ ∀ c ∈ word.toList, c.isLower = true

instance (word : String) : Decidable (IsSmall word) :=
  decidable_of_iff (word ≠ "" ∧ word.toList.all Char.isLower = true)
    (and_congr_right fun _ => List.all_eq_true)

/-- Separators that are taken away; without camel case there are none. -/
structure IsRun (camel : Bool) (seps : List Char) : Prop where
  separators : ∀ c ∈ seps, isSeparator c = true
  none : camel = false → seps = []

/-- Text that spells words one after the other, each with a capital or after separators. -/
inductive SpellsMore (camel : Bool) : List String → List Char → Prop where
  | nil : SpellsMore camel [] []
  | capital {seps cs : List Char} {word : String} {words : List String} : IsRun camel seps →
      SpellsMore camel words cs →
      SpellsMore camel (word :: words) (seps ++ (capitalChars word.toList ++ cs))
  | small {seps cs : List Char} {word : String} {words : List String} : IsRun camel seps →
      seps ≠ [] → SpellsMore camel words cs →
      SpellsMore camel (word :: words) (seps ++ (word.toList ++ cs))

/-- A key that spells a word, with a capital or not, and then more words. -/
def Spells (camel : Bool) (word : String) (words : List String) (key : String) : Prop :=
  ∃ seps first cs, IsRun camel seps ∧ (first = word.toList ∨ first = capitalChars word.toList) ∧
    SpellsMore camel words cs ∧ key.toList = seps ++ (first ++ cs)

lemma isRun_nil (camel : Bool) : IsRun camel [] := ⟨List.forall_mem_nil _, fun _ => rfl⟩

section Letters

variable {c d : Char}

lemma isSeparator_of_isAlphanum (h : c.isAlphanum = true) : isSeparator c = false := by
  by_contra hc
  rw [Bool.not_eq_false, isSeparator, Bool.or_eq_true, decide_eq_true_eq, decide_eq_true_eq] at hc
  rcases hc with rfl | rfl <;> contradiction

lemma isAlphanum_toUpper (h : c.isLower = true) : c.toUpper.isAlphanum = true :=
  (upperChars_of_isAlphanum (isAlphanum_of_isLower h)).2

lemma capitalChars_cons (h : c.isLower = true) (cs : List Char) :
    capitalChars (c :: cs) = c.toUpper :: cs := by
  rw [capitalChars, (upperChars_of_isAlphanum (isAlphanum_of_isLower h)).1, List.singleton_append]

/-- Only a small letter and its capital become this letter, with two exceptions that other
characters become too. -/
lemma uncapitalChars_eq_cons_iff (h : c.isLower = true) (hi : c ≠ 'i') (hk : c ≠ 'k')
    (cs ws : List Char) :
    uncapitalChars cs = c :: ws ↔ cs = c :: ws ∨ cs = c.toUpper :: ws := by
  have hlow := toNat_lt_of_isAlphanum (isAlphanum_of_isLower h)
  have hcapital := toNat_lt_of_isAlphanum (isAlphanum_toUpper h)
  cases cs with
  | nil => simp [uncapitalChars]
  | cons d cs =>
    rw [uncapitalChars]
    constructor
    · intro heq
      rcases Nat.lt_or_ge d.toNat 0x80 with hd | hd
      · rw [lowerChars_ascii hd, List.singleton_append] at heq
        obtain ⟨hd', rfl⟩ := List.cons.inj heq
        rcases eq_toLower_or d with hd | hd
        · left
          rw [hd, hd']
        · right
          rw [hd, hd']
      · obtain ⟨e, es, hes, he⟩ := exists_lowerChars_eq_cons hd
        rw [hes, List.cons_append] at heq
        obtain ⟨rfl, -⟩ := List.cons.inj heq
        rcases he with he | he | he
        · omega
        · exact absurd he hi
        · exact absurd he hk
    · rintro (heq | heq)
      · obtain ⟨rfl, rfl⟩ := List.cons.inj heq
        rw [lowerChars_ascii hlow, toLower_of_isLower h, List.singleton_append]
      · obtain ⟨rfl, rfl⟩ := List.cons.inj heq
        rw [lowerChars_ascii hcapital, toLower_toUpper h, List.singleton_append]

end Letters

/-- A text as it stands, or in camel case. -/
def convertChars (camel : Bool) (cs : List Char) : List Char :=
  if camel then camelChars [] cs else cs

lemma toList_property (camel : Bool) (key : String) :
    (property camel key).toList = uncapitalChars (convertChars camel key.toList) := by
  cases camel with
  | true => simp [property, uncapitalize, camelCase, convertChars]
  | false => simp [property, uncapitalize, convertChars]

/-- A property does not begin with an ASCII capital. -/
lemma not_isUpper_property (camel : Bool) (key : String) :
    ∀ c, (property camel key).toList.head? = some c → c.isUpper = false := by
  intro c hc
  rw [toList_property] at hc
  cases hkey : convertChars camel key.toList with
  | nil =>
    rw [hkey] at hc
    cases hc
  | cons b cs =>
    obtain ⟨d, ds, hlower⟩ := List.exists_cons_of_ne_nil (lowerChars_ne_nil b)
    rw [hkey, uncapitalChars, hlower] at hc
    obtain rfl : d = c := Option.some.inj hc
    have hmem : d ∈ lowerChars b := by
      rw [hlower]
      exact List.mem_cons_self
    exact not_isUpper_of_mem_lowerChars hmem

/-- Another character than a separator is the first one in camel case if it ends the run in front,
or if its letter or digit does. -/
lemma camelChars_run_eq_cons_iff {seps rest ws : List Char} {c w : Char}
    (hseps : ∀ s ∈ seps, isSeparator s = true) (hc : isSeparator c = false)
    (hw : isSeparator w = false) :
    camelChars [] (seps ++ c :: rest) = w :: ws ↔ camelChars [] rest = ws ∧
      if seps = [] then c = w else c.isAlphanum = true ∧ c.toUpper = w := by
  rw [camelChars_run_cons hseps hc]
  cases seps with
  | nil => simp [and_comm]
  | cons s seps =>
    have hs : s ≠ w := by
      rintro rfl
      rw [hseps s List.mem_cons_self] at hw
      contradiction
    by_cases halnum : c.isAlphanum = true
    · simp [halnum, and_comm]
    · simp [halnum, hs]

/-- The first character in camel case: it stands in front, or it is the capital of the first one
behind separators. -/
lemma camelChars_eq_cons_iff {cs ws : List Char} {w : Char} (hw : isSeparator w = false) :
    camelChars [] cs = w :: ws ↔ ∃ seps c rest, cs = seps ++ c :: rest ∧
      (∀ s ∈ seps, isSeparator s = true) ∧ isSeparator c = false ∧ camelChars [] rest = ws ∧
      if seps = [] then c = w else c.isAlphanum = true ∧ c.toUpper = w := by
  constructor
  · intro h
    induction cs using run_induct with
    | last run hrun =>
      rw [camelChars_separators hrun] at h
      rw [hrun w (by simp [h])] at hw
      contradiction
    | next seps c rest hseps hc _ =>
      exact ⟨seps, c, rest, rfl, hseps, hc, (camelChars_run_eq_cons_iff hseps hc hw).mp h⟩
  · rintro ⟨seps, c, rest, rfl, hseps, hc, h⟩
    exact (camelChars_run_eq_cons_iff hseps hc hw).mpr h

/-- The same for any conversion. -/
lemma convertChars_eq_cons_iff (camel : Bool) {cs ws : List Char} {w : Char}
    (hw : isSeparator w = false) :
    convertChars camel cs = w :: ws ↔ ∃ seps c rest, cs = seps ++ c :: rest ∧ IsRun camel seps ∧
      convertChars camel rest = ws ∧
      if seps = [] then c = w else c.isAlphanum = true ∧ c.toUpper = w := by
  cases camel with
  | false =>
    simp only [convertChars, Bool.false_eq_true, if_false]
    constructor
    · rintro rfl
      exact ⟨[], w, ws, rfl, isRun_nil false, rfl, rfl⟩
    · rintro ⟨seps, c, rest, rfl, hrun, rfl, hfirst⟩
      obtain rfl := hrun.none rfl
      rw [if_pos rfl] at hfirst
      rw [hfirst, List.nil_append]
  | true =>
    simp only [convertChars, if_true]
    rw [camelChars_eq_cons_iff hw]
    constructor
    · rintro ⟨seps, c, rest, hcs, hseps, -, hrest, hfirst⟩
      exact ⟨seps, c, rest, hcs, ⟨hseps, nofun⟩, hrest, hfirst⟩
    · rintro ⟨seps, c, rest, hcs, hrun, hrest, hfirst⟩
      refine ⟨seps, c, rest, hcs, hrun.separators, ?_, hrest, hfirst⟩
      split_ifs at hfirst
      · rwa [hfirst]
      · exact isSeparator_of_isAlphanum hfirst.1

/-- Small letters stand in the key as they are. -/
lemma convertChars_eq_append_iff (camel : Bool) {letters : List Char}
    (hletters : ∀ c ∈ letters, c.isLower = true) (cs ws : List Char) :
    convertChars camel cs = letters ++ ws ↔
      ∃ rest, cs = letters ++ rest ∧ convertChars camel rest = ws := by
  induction letters generalizing cs with
  | nil => simp
  | cons c letters ih =>
    obtain ⟨hc, hletters⟩ := List.forall_mem_cons.mp hletters
    have hseparator := isSeparator_of_isAlphanum (isAlphanum_of_isLower hc)
    rw [List.cons_append, convertChars_eq_cons_iff camel hseparator]
    constructor
    · rintro ⟨seps, d, rest, rfl, -, hrest, hfirst⟩
      obtain ⟨rest, rfl, hws⟩ := (ih hletters _).mp hrest
      split_ifs at hfirst with hempty
      · exact ⟨rest, by rw [hempty, hfirst]; rfl, hws⟩
      · have hcapital := isLower_toUpper d
        rw [hfirst.2, hc] at hcapital
        contradiction
    · rintro ⟨rest, rfl, hws⟩
      have hrest := (ih hletters (letters ++ rest)).mpr ⟨rest, rfl, hws⟩
      exact ⟨[], c, letters ++ rest, rfl, isRun_nil camel, hrest, rfl⟩

/-- A word with a capital stands in the key with this capital, or after separators in small
letters. -/
lemma convertChars_eq_capital_iff (camel : Bool) {word : String} (hword : IsSmall word)
    (cs ws : List Char) :
    convertChars camel cs = capitalChars word.toList ++ ws ↔
      ∃ seps rest, IsRun camel seps ∧ convertChars camel rest = ws ∧
        (cs = seps ++ (capitalChars word.toList ++ rest) ∨
          seps ≠ [] ∧ cs = seps ++ (word.toList ++ rest)) := by
  obtain ⟨hne, hlower⟩ := hword
  obtain ⟨c, letters, hword⟩ := List.exists_cons_of_ne_nil (by simpa using hne : word.toList ≠ [])
  rw [hword] at hlower ⊢
  obtain ⟨hc, hletters⟩ := List.forall_mem_cons.mp hlower
  have hseparator := isSeparator_of_isAlphanum (isAlphanum_toUpper hc)
  rw [capitalChars_cons hc, List.cons_append, convertChars_eq_cons_iff camel hseparator]
  constructor
  · rintro ⟨seps, d, rest, rfl, hrun, hrest, hfirst⟩
    obtain ⟨rest, rfl, hws⟩ := (convertChars_eq_append_iff camel hletters _ _).mp hrest
    refine ⟨seps, rest, hrun, hws, ?_⟩
    split_ifs at hfirst with hempty
    · left
      rw [hfirst, List.cons_append]
    · rcases eq_toUpper_or d with hd | hd
      · left
        rw [hd, hfirst.2, List.cons_append]
      · right
        rw [hd, hfirst.2, toLower_toUpper hc]
        exact ⟨hempty, rfl⟩
  · rintro ⟨seps, rest, hrun, hws, hcs⟩
    have hrest := (convertChars_eq_append_iff camel hletters _ _).mpr ⟨rest, rfl, hws⟩
    rcases hcs with rfl | ⟨hempty, rfl⟩
    · refine ⟨seps, c.toUpper, letters ++ rest, rfl, hrun, hrest, ?_⟩
      split_ifs
      · rfl
      · exact ⟨isAlphanum_toUpper hc, toUpper_eq_self_iff.mpr (isLower_toUpper c)⟩
    · refine ⟨seps, c, letters ++ rest, rfl, hrun, hrest, ?_⟩
      rw [if_neg hempty]
      exact ⟨isAlphanum_of_isLower hc, rfl⟩

/-- Words with capitals are spelled by exactly these texts. -/
lemma convertChars_eq_iff_spellsMore (camel : Bool) {words : List String}
    (hwords : ∀ word ∈ words, IsSmall word) {cs : List Char} :
    convertChars camel cs = words.flatMap (fun word => capitalChars word.toList) ↔
      SpellsMore camel words cs := by
  induction words generalizing cs with
  | nil =>
    have hnil : convertChars camel cs = [] ↔ cs = [] := by
      cases camel with
      | false => rfl
      | true =>
        refine ⟨fun h => ?_, fun h => by rw [h]; rfl⟩
        by_contra hcs
        have hne : camelChars [] cs ≠ [] := camelChars_ne_nil hcs
        exact hne h
    rw [List.flatMap_nil, hnil]
    constructor
    · rintro rfl
      exact .nil
    · rintro ⟨⟩
      rfl
  | cons word words ih =>
    obtain ⟨hword, hwords⟩ := List.forall_mem_cons.mp hwords
    rw [List.flatMap_cons, convertChars_eq_capital_iff camel hword]
    constructor
    · rintro ⟨seps, rest, hrun, hrest, rfl | ⟨hempty, rfl⟩⟩
      · exact .capital hrun ((ih hwords).mp hrest)
      · exact .small hrun hempty ((ih hwords).mp hrest)
    · intro h
      cases h with
      | capital hrun hrest => exact ⟨_, _, hrun, (ih hwords).mpr hrest, Or.inl rfl⟩
      | small hrun hempty hrest => exact ⟨_, _, hrun, (ih hwords).mpr hrest, Or.inr ⟨hempty, rfl⟩⟩

/-- The keys that become a name made of words: a word in small letters, and more with capitals. -/
theorem property_eq_iff_spells (camel : Bool) {word : String} {words : List String}
    (hword : IsSmall word) (hfirst : word.toList.head? ≠ some 'i' ∧ word.toList.head? ≠ some 'k')
    (hwords : ∀ word ∈ words, IsSmall word) (key : String) :
    property camel key = word ++ String.join (words.map capitalize) ↔
      Spells camel word words key := by
  have hjoin : (word ++ String.join (words.map capitalize)).toList =
      word.toList ++ words.flatMap fun word => capitalChars word.toList := by
    rw [String.toList_append, String.toList_join, List.flatMap_map]
    simp only [capitalize, String.toList_ofList]
  have hcapital := convertChars_eq_capital_iff camel hword key.toList
    (words.flatMap fun word => capitalChars word.toList)
  have hsmall := convertChars_eq_append_iff camel hword.2 key.toList
    (words.flatMap fun word => capitalChars word.toList)
  simp only [convertChars_eq_iff_spellsMore camel hwords] at hcapital hsmall
  obtain ⟨c, letters, hletters⟩ :=
    List.exists_cons_of_ne_nil (by simpa using hword.1 : word.toList ≠ [])
  have hc : c.isLower = true := hword.2 c (by simp [hletters])
  rw [hletters] at hfirst
  have huncapital : (property camel key).toList =
        word.toList ++ words.flatMap (fun word => capitalChars word.toList) ↔
      convertChars camel key.toList =
          word.toList ++ words.flatMap (fun word => capitalChars word.toList) ∨
        convertChars camel key.toList =
          capitalChars word.toList ++ words.flatMap (fun word => capitalChars word.toList) := by
    rw [toList_property, hletters, capitalChars_cons hc, List.cons_append, List.cons_append]
    apply uncapitalChars_eq_cons_iff hc
    · simpa using hfirst.1
    · simpa using hfirst.2
  rw [← String.toList_inj, hjoin, huncapital, hcapital, hsmall]
  constructor
  · rintro (⟨rest, hkey, hrest⟩ | ⟨seps, rest, hrun, hrest, hkey | ⟨-, hkey⟩⟩)
    · exact ⟨[], word.toList, rest, isRun_nil camel, Or.inl rfl, hrest, hkey⟩
    · exact ⟨seps, _, rest, hrun, Or.inr rfl, hrest, hkey⟩
    · exact ⟨seps, _, rest, hrun, Or.inl rfl, hrest, hkey⟩
  · rintro ⟨seps, first, rest, hrun, rfl | rfl, hrest, hkey⟩
    · by_cases hempty : seps = []
      · subst hempty
        exact Or.inl ⟨rest, hkey, hrest⟩
      · exact Or.inr ⟨seps, rest, hrun, hrest, Or.inr ⟨hempty, hkey⟩⟩
    · exact Or.inr ⟨seps, rest, hrun, hrest, Or.inl hkey⟩

end SampleTypes.Name
