import SampleTypes.Command.Generate
import SampleTypes.Proofs.Text.Blank

/-! The name of a language, wherever it is looked up. Settings take a name and its aliases, files
and code take an exact identifier; both agree because the identifier that a name leads to is
looked up as the language that the name is read as. -/
namespace SampleTypes

namespace Language

/-- The language that has a name in lower case among its aliases. -/
def ofAlias? (name : String) : Option Language := all.find? (·.aliases.contains name)

lemma ofId?_eq_some_iff (s : String) (language : Language) :
    ofId? s = some language ↔ s = language.id := by
  constructor
  · intro h
    rw [ofId?] at h
    have hid := List.find?_some h
    exact (beq_iff_eq.mp hid).symm
  · intro h
    rw [h, ofId?_id]

/-- In lower case every identifier is an alias of its own language, and of no language before it. -/
lemma ofAlias?_id (language : Language) :
    ofAlias? (Text.lower (Text.trim language.id)) = some language := by
  cases language <;> decide

/-- Identifiers are read as the aliases that they are in lower case. -/
lemma parse?_eq_ofAlias? (s : String) : parse? s = ofAlias? (Text.lower (Text.trim s)) := by
  have hor : parse? s = (ofId? s).or (ofAlias? (Text.lower (Text.trim s))) := rfl
  cases h : ofId? s with
  | none => rw [hor, h, Option.none_or]
  | some language =>
    have hid : s = language.id := (ofId?_eq_some_iff s language).mp h
    rw [hor, h, Option.some_or, hid, ofAlias?_id]

/-- The case of ASCII letters does not matter. -/
lemma parse?_congr {s t : String} (h : s.toList.map Char.toLower = t.toList.map Char.toLower) :
    parse? s = parse? t := by
  rw [parse?_eq_ofAlias?, parse?_eq_ofAlias?, Text.lower_trim_congr h]

/-- Blanks around a name do not matter. -/
lemma parse?_append {before after : String} (hbefore : Text.isBlankText before = true)
    (hafter : Text.isBlankText after = true) (s : String) :
    parse? (before ++ s ++ after) = parse? s := by
  rw [parse?_eq_ofAlias?, parse?_eq_ofAlias?, Text.trim_append hbefore hafter]

/-- Looking up the identifier that a name leads to is reading the name. -/
lemma ofId?_canonicalId (s : String) : ofId? (canonicalId s) = parse? s := by
  cases h : parse? s with
  | some language =>
    rw [canonicalId, h]
    exact ofId?_id language
  | none =>
    rw [canonicalId, h]
    exact (Option.or_eq_none_iff.mp h).1

lemma canonicalId_of_parse?_eq_none {s : String} (h : parse? s = none) : canonicalId s = s := by
  rw [canonicalId, h]
  rfl

lemma extension?_canonicalId (s : String) :
    extension? (canonicalId s) = (parse? s).map extension := by
  rw [extension?, ofId?_canonicalId]

lemma canonicalId_canonicalId (s : String) : canonicalId (canonicalId s) = canonicalId s := by
  cases h : parse? s with
  | some language =>
    have hid : canonicalId s = language.id := by
      rw [canonicalId, h]
      rfl
    rw [hid, canonicalId, parse?, ofId?_id]
    rfl
  | none =>
    rw [canonicalId_of_parse?_eq_none h]
    exact canonicalId_of_parse?_eq_none h

end Language

/-- The check of settings has nothing against the name of a language. -/
def Settings.Accepts (name : String) : Prop :=
  ∀ settings : Settings, settings.generate.language = some name →
    ∀ unknown, settings.fault? ≠ some (.unknownLanguage unknown)

lemma Settings.fault?_of_unknown {settings : Settings} {name : String}
    (hname : settings.generate.language = some name) (h : Language.parse? name = none) :
    settings.fault? = some (.unknownLanguage name) := by
  simp [fault?, hname, h, Option.filter]

lemma Settings.accepts_iff (name : String) :
    Accepts name ↔ (Language.parse? name).isSome := by
  constructor
  · intro haccepts
    by_contra hnone
    rw [Option.not_isSome_iff_eq_none] at hnone
    exact haccepts { generate := { language := some name } } rfl name
      (fault?_of_unknown rfl hnone)
  · intro hsome settings hname unknown
    obtain ⟨language, hlanguage⟩ := Option.isSome_iff_exists.mp hsome
    rw [fault?, hname]
    simp only [Option.filter, hlanguage, Option.isNone_some, Bool.false_eq_true, if_false]
    split_ifs <;> simp

namespace Command

/-- A command that asks for its language by this name, or leaves that to settings which do. -/
def AsksFor (request : GenerateRequest) (settings : Settings) (name : String) : Prop :=
  (request.language.or settings.generate.language).getD defaultLanguage = name

/-- The name of a language: code in this language, under its own file ending, also in
a directory. -/
structure LeadsTo (name : String) (language : Language) : Prop where
  identifier : Language.ofId? (Language.canonicalId name) = some language
  ending : Language.extension? (Language.canonicalId name) = some language.extension
  code : ∀ sample root camel,
    let source := Source.ofId (Language.canonicalId name) sample root camel
    source.language = language ∧ source.extension = language.extension ∧
      source.code = language.generate sample root camel
  directory : ∀ (request : GenerateRequest) settings directory sample,
    AsksFor request settings name → request.destination = .directory directory →
    request.path settings (request.source settings sample) = .ok (some (Files.Path.join directory
      (Name.snakeCase (request.rootName settings) ++ language.extension)))

/-- A name that no language goes by: it stays as it is and stands for JavaScript, but for no file
ending. -/
structure LeadsNowhere (name : String) : Prop where
  canonical : Language.canonicalId name = name
  fault : ∀ settings : Settings, settings.generate.language = some name →
    settings.fault? = some (.unknownLanguage name)
  code : ∀ sample root camel,
    let source := Source.ofId (Language.canonicalId name) sample root camel
    source.language = .javaScript ∧ source.extension = ".js" ∧
      source.code = Language.javaScript.generate sample root camel
  directory : ∀ (request : GenerateRequest) settings directory source,
    AsksFor request settings name → request.destination = .directory directory →
    request.path settings source = .error (.unknownExtension name)

lemma AsksFor.languageId {request : GenerateRequest} {settings : Settings} {name : String}
    (h : AsksFor request settings name) :
    request.languageId settings = Language.canonicalId name := by
  rw [GenerateRequest.languageId, h]

lemma leadsTo_of_parse? {name : String} {language : Language}
    (h : Language.parse? name = some language) : LeadsTo name language := by
  have hexact : Language.ofId? (Language.canonicalId name) = some language := by
    rw [Language.ofId?_canonicalId, h]
  have hending : Language.extension? (Language.canonicalId name) = some language.extension := by
    rw [Language.extension?_canonicalId, h, Option.map_some]
  have hresolve : Language.resolve (Language.canonicalId name) = language := by
    rw [Language.resolve, hexact, Option.getD_some]
  refine ⟨hexact, hending, fun sample root camel => ?_, ?_⟩
  · simp only [Source.ofId, Source.extension, hresolve, and_self]
  · intro request settings directory sample hasks hdirectory
    have hid := hasks.languageId
    simp only [GenerateRequest.path, hdirectory, hid, hending, Option.isNone_some,
      Bool.false_eq_true, if_false, GenerateRequest.source, Source.fileName, Source.extension,
      Source.ofId, hresolve]

lemma leadsNowhere_of_parse? {name : String} (h : Language.parse? name = none) :
    LeadsNowhere name := by
  have hcanonical := Language.canonicalId_of_parse?_eq_none h
  have hending : Language.extension? (Language.canonicalId name) = none := by
    rw [Language.extension?_canonicalId, h, Option.map_none]
  have hresolve : Language.resolve (Language.canonicalId name) = .javaScript := by
    rw [Language.resolve, Language.ofId?_canonicalId, h]
    rfl
  refine ⟨hcanonical, fun settings hname => Settings.fault?_of_unknown hname h,
    fun sample root camel => ?_, ?_⟩
  · simp only [Source.ofId, Source.extension, hresolve]
    exact ⟨trivial, rfl, trivial⟩
  · intro request settings directory source hasks hdirectory
    have hid := hasks.languageId
    simp only [GenerateRequest.path, hdirectory, hid, hending, Option.isNone_none, if_true]
    rw [hcanonical]

/-- All lookups of a name agree. That it is read as a language, that settings may hold it, that it
leads to an identifier and that this has a file ending are the same, and then code and files are
those of the language; any other name stays as it is, gives JavaScript and no name for a file.
Neither the case of ASCII letters nor blanks around a name change what it is read as. -/
theorem language_lookups_agree (name : String) :
    (∀ language, Language.parse? name = some language ↔
      Language.ofId? (Language.canonicalId name) = some language) ∧
    ((Language.parse? name).isSome ↔ Settings.Accepts name) ∧
    ((Language.parse? name).isSome ↔
      (Language.extension? (Language.canonicalId name)).isSome) ∧
    (∀ language, Language.parse? name = some language → LeadsTo name language) ∧
    (Language.parse? name = none → LeadsNowhere name) ∧
    Language.canonicalId (Language.canonicalId name) = Language.canonicalId name ∧
    (∀ other : String, other.toList.map Char.toLower = name.toList.map Char.toLower →
      Language.parse? other = Language.parse? name) ∧
    ∀ before after : String, Text.isBlankText before = true → Text.isBlankText after = true →
      Language.parse? (before ++ name ++ after) = Language.parse? name := by
  refine ⟨fun language => ?_, (Settings.accepts_iff name).symm, ?_,
    fun language => leadsTo_of_parse?, leadsNowhere_of_parse?,
    Language.canonicalId_canonicalId name, fun other => Language.parse?_congr,
    fun before after hbefore hafter => Language.parse?_append hbefore hafter name⟩
  · rw [Language.ofId?_canonicalId]
  · rw [Language.extension?_canonicalId, Option.isSome_map]

/-- The sign of the kelvin has the letter `k` for its lower case; it is no ASCII letter. -/
example : Language.parse? "\u3000\u212aOTLIN\u0085" = some .kotlin ∧
    Language.canonicalId "\u212aotlinx" = "\u212aotlinx" := by decide

end Command

end SampleTypes
