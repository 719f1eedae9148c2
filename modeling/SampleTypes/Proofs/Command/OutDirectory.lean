import SampleTypes.Proofs.Command.Generate
import SampleTypes.Proofs.Language
import SampleTypes.Proofs.Name.Snake
import SampleTypes.Proofs.Text.Line

/-! Where code goes that is written into a directory. A name without slashes is a step of its own,
so its file stands directly in the directory; but the root that a file is named after may have
slashes in it, and then its file is filed elsewhere, or leave nothing for a stem. -/
namespace SampleTypes

/-! Paths of files in a directory. -/

/-- A text falls apart at a cut into the pieces before it and those behind it. -/
lemma Text.splitBy_append_cut {p : Char → Bool} {c : Char} (hc : p c = true)
    (cs rest : List Char) :
    splitBy p (cs ++ c :: rest) = splitBy p cs ++ splitBy p rest := by
  induction cs with
  | nil => simp [splitBy, hc]
  | cons d cs ih =>
    obtain ⟨piece, pieces, hpieces⟩ := List.exists_cons_of_ne_nil (splitBy_ne_nil p cs)
    rw [List.cons_append, splitBy, ih, splitBy, hpieces]
    split <;> rfl

namespace Files

namespace Path

variable {directory name : String}

lemma pieces_append_slash (a b : String) : pieces (a ++ "/" ++ b) = pieces a ++ pieces b := by
  have hslash : "/".toList = ['/'] := rfl
  rw [pieces, String.toList_append, String.toList_append, hslash, List.append_assoc,
    List.singleton_append, Text.splitBy_append_cut (by decide), List.map_append, pieces, pieces]

lemma steps_append_slash (a b : String) : steps (a ++ "/" ++ b) = steps a ++ steps b := by
  rw [steps, pieces_append_slash, List.filter_append, steps, steps]

/-- A name without slashes is one step, unless it leads nowhere. -/
lemma steps_of_notMem (hslash : '/' ∉ name.toList) (hempty : name ≠ "") (hdot : name ≠ ".") :
    steps name = [name] := by
  have hnone : ∀ c ∈ name.toList, decide (c = '/') = false := by
    intro c hc
    have hne : c ≠ '/' := fun h => hslash (h ▸ hc)
    simpa using hne
  rw [steps, pieces, Text.splitBy_of_all_not hnone]
  simp [hempty, hdot]

lemma isAbsolute_append (h : directory ≠ "") (rest : String) :
    isAbsolute (directory ++ rest) = isAbsolute directory := by
  obtain ⟨c, cs, hcs⟩ : ∃ c cs, directory.toList = c :: cs :=
    List.exists_cons_of_ne_nil (by simpa using h)
  simp [isAbsolute, hcs]

/-- A path that is not absolute goes on where the directory ends, with the steps of both. -/
lemma join_of_not_isAbsolute (directory : String) (hname : isAbsolute name = false) :
    steps (join directory name) = steps directory ++ steps name ∧
      isAbsolute (join directory name) = isAbsolute directory := by
  rw [join]
  by_cases hempty : directory = ""
  · rw [if_pos (Or.inr hempty), hempty]
    exact ⟨rfl, hname⟩
  rw [if_neg (by simp [hname, hempty])]
  split_ifs with hlast
  · obtain ⟨start, hstart⟩ := List.getLast?_eq_some_iff.mp hlast
    have hdirectory : directory = .ofList start ++ "/" := by
      rw [← String.toList_inj, String.toList_append, String.toList_ofList, hstart]
      rfl
    have hself : steps directory = steps (.ofList start) := by
      have hslash := steps_append_slash (.ofList start) ""
      rw [String.append_empty, ← hdirectory] at hslash
      rw [hslash]
      exact List.append_nil _
    refine ⟨?_, isAbsolute_append hempty name⟩
    rw [hself, hdirectory, steps_append_slash]
  · rw [steps_append_slash, String.append_assoc]
    exact ⟨rfl, isAbsolute_append hempty _⟩

end Path

/-- A name in a directory stands for the place right under that of the directory. -/
lemma Tree.placeOf_join (t : Tree) {directory name : String} (hslash : '/' ∉ name.toList)
    (hname : name ∉ ["", ".", ".."]) :
    t.placeOf (Path.join directory name) = t.placeOf directory ++ [name] := by
  simp only [List.mem_cons, List.not_mem_nil, or_false, not_or] at hname
  have hrelative : Path.isAbsolute name = false := by
    by_contra habsolute
    exact hslash (List.mem_of_head? (by simpa [Path.isAbsolute] using habsolute))
  obtain ⟨hsteps, hstart⟩ := Path.join_of_not_isAbsolute directory hrelative
  rw [Path.steps_of_notMem hslash hname.1 hname.2.1] at hsteps
  rw [placeOf, placeOf, start, start, hstart, hsteps, List.foldl_append]
  exact if_neg hname.2.2

end Files

/-! Stems. -/

namespace Name

open Text

/-- A slash in snake case was a slash before. -/
lemma slash_mem_snakeCase_iff (s : String) : '/' ∈ (snakeCase s).toList ↔ '/' ∈ s.toList := by
  have hdrop : ∀ cs, '/' ∈ dropUnderscore cs ↔ '/' ∈ cs := by
    intro cs
    unfold dropUnderscore
    split <;> simp
  have hlower : ∀ c,
      '/' ∈ (if isUpperCase c then '_' :: lowerChars c else lowerChars c) ↔ c = '/' := by
    intro c
    constructor
    · intro h
      have hmem : '/' ∈ lowerChars c := by
        split_ifs at h
        · simpa using h
        · exact h
      exact (eq_of_mem_lowerChars hmem (by decide)).symm
    · rintro rfl
      decide
  rw [snakeCase, String.toList_ofList, hdrop, snakeChars, List.mem_flatMap]
  simp only [hlower, exists_eq_right]

/-- Nothing is left in snake case of nothing, and of one underscore. -/
lemma snakeCase_eq_empty_iff (s : String) : snakeCase s = "" ↔ s = "" ∨ s = "_" := by
  have hnil : snakeCase s = "" ↔ dropUnderscore (snakeChars s.toList) = [] := by
    rw [← String.toList_inj, snakeCase, String.toList_ofList]
    rfl
  have hunderscore : s = "_" ↔ s.toList = ['_'] := by
    rw [← String.toList_inj]
    rfl
  rw [hnil, dropUnderscore_eq_iff, snakeChars_eq_singleton_iff, snakeChars_eq_nil_iff, hunderscore,
    or_comm, String.toList_eq_nil_iff]
  refine or_congr (by simp) ⟨?_, fun h => ⟨'_', h, by decide, by decide⟩⟩
  rintro ⟨c, hs, -, hlower⟩
  rw [hs, (lowerChars_eq_underscore_cons_iff.mp hlower).1]

end Name

namespace Language

/-- An ending is a dot and letters. -/
lemma extension_cases (language : Language) :
    '/' ∉ language.extension.toList ∧ language.extension.toList.any Char.isAlpha = true := by
  cases language <;> decide

end Language

namespace Command

open Files

/-- The file of a path is directly in a directory, and it is named by a stem and an ending: some
text without slashes, and then the ending. -/
@[mk_iff]
structure IsFiledIn (t : Tree) (directory path stem ending : String) : Prop where
  place : t.placeOf path = t.placeOf directory ++ [stem ++ ending]
  stem_ne_empty : stem ≠ ""
  slash_notMem_stem : '/' ∉ stem.toList

variable {t : Tree} {settings : Settings} {request : GenerateRequest}

lemma isFiledIn_join_iff (t : Tree) (language : Language) (directory root : String) :
    IsFiledIn t directory
        (Path.join directory (Name.snakeCase root ++ language.extension)) (Name.snakeCase root)
        language.extension ↔
      '/' ∉ root.toList ∧ root ≠ "" ∧ root ≠ "_" := by
  rw [isFiledIn_iff, ne_eq, Name.snakeCase_eq_empty_iff, Name.slash_mem_snakeCase_iff, not_or]
  constructor
  · rintro ⟨-, hstem, hslash⟩
    exact ⟨hslash, hstem⟩
  · rintro ⟨hslash, hstem⟩
    obtain ⟨hending, hletter⟩ := language.extension_cases
    refine ⟨t.placeOf_join ?_ fun hname => ?_, hstem, hslash⟩
    · rw [String.toList_append, List.mem_append, Name.slash_mem_snakeCase_iff]
      exact not_or.mpr ⟨hslash, hending⟩
    · have hdots : ∀ name ∈ ["", ".", ".."], name.toList.any Char.isAlpha = false := by decide
      have hnone := hdots _ hname
      rw [String.toList_append, List.any_append, hletter, Bool.or_true] at hnone
      cases hnone

/-- A root that begins with a slash is a path from the root of all files. -/
lemma isAbsolute_fileName {root : String} (h : Path.isAbsolute root = true) (ending : String) :
    Path.isAbsolute (Name.snakeCase root ++ ending) = true := by
  obtain ⟨cs, hroot⟩ := List.head?_eq_some_iff.mp (of_decide_eq_true h)
  have hsnake : (Name.snakeCase root).toList = '/' :: Name.snakeChars cs := by
    rw [Name.snakeCase, String.toList_ofList, hroot, Name.snakeChars_cons]
    rfl
  simp [Path.isAbsolute, hsnake]

/-- A run that succeeds has a text, a sample and a place for its code, and leaves them delivered. -/
lemma exists_run_eq_of_done {standardInput : Option String} {now : Int} {zone : CivilTime.Zone}
    {arguments : List String}
    {settingsPath : Option String}
    (hrequest : Invocation.ofArguments? arguments = some ⟨settingsPath, .generate request⟩)
    (hsettings : ((Settings.discover (m := StateM Tree) settingsPath).run t).1 = .ok settings)
    (hdone : ∀ failure,
      ((run (m := StateM Tree) (pure standardInput) (pure now) arguments zone).run t).1 ≠
        .failed failure) :
    ∃ text sample path, input? standardInput t request.input = some text ∧
      Json.parse? text = some sample ∧
      request.path settings (request.source settings sample) = .ok path ∧
      (∀ file ∈ path, t.CanWrite file) ∧
      (run (m := StateM Tree) (pure standardInput) (pure now) arguments zone).run t =
        (.done (printedFor (request.source settings sample) path),
          remember settings request now text (request.source settings sample).language
            (delivered t (request.source settings sample) path)) := by
  have hrun := run_eq_generate standardInput now zone hrequest hsettings
  have hopen : ∀ failure, ¬Hindrance standardInput t settings request failure := by
    intro failure hfailure
    obtain ⟨t', hfails, -⟩ := run_generate_of_hindrance now hfailure
    rw [hrun, hfails] at hdone
    exact hdone failure rfl
  obtain ⟨text, sample, path, htext, hsample, hpath, hcan⟩ := exists_of_not_hindrance hopen
  refine ⟨text, sample, path, htext, hsample, hpath, hcan, ?_⟩
  rw [hrun, run_generate_done now htext hsample hpath hcan]
  rfl

/-- Code that is written into a directory goes to one file, whose name is the root in snake case
and the ending of the language, seen from the directory. The file is directly in the directory,
with a stem, just if the root has no slash in it and is neither empty nor a single underscore; a
root that begins with a slash leads away from any directory. A run that succeeds names the file,
puts the code there and changes no other file but the history. -/
theorem code_is_filed_in_directory_iff (standardInput : Option String) (now : Int)
    (zone : CivilTime.Zone)
    {arguments : List String} {settingsPath : Option String} {request : GenerateRequest}
    {settings : Settings} {t : Tree} {directory name : String} {language : Language}
    (hrequest : Invocation.ofArguments? arguments = some ⟨settingsPath, .generate request⟩)
    (hsettings : ((Settings.discover (m := StateM Tree) settingsPath).run t).1 = .ok settings)
    (hdirectory : request.destination = .directory directory)
    (hname : AsksFor request settings name) (hlanguage : Language.parse? name = some language) :
    let root := request.rootName settings
    let stem := Name.snakeCase root
    let path := Path.join directory (stem ++ language.extension)
    let result := (run (m := StateM Tree) (pure standardInput) (pure now) arguments zone).run t
    (∀ sample, request.path settings (request.source settings sample) = .ok (some path)) ∧
    (IsFiledIn t directory path stem language.extension ↔
      '/' ∉ root.toList ∧ root ≠ "" ∧ root ≠ "_") ∧
    (Path.isAbsolute root → path = stem ++ language.extension) ∧
    ((∀ failure, result.1 ≠ .failed failure) → ∃ text sample,
      input? standardInput t request.input = some text ∧ Json.parse? text = some sample ∧
      result.1 = .done (writtenLine path (request.source settings sample)) ∧
      (t.placeOf path ≠ t.placeOf settings.history.path → result.2.fileAt? (t.placeOf path) =
        some (.text ((request.source settings sample).code ++ "\n"))) ∧
      ∀ place, place ≠ t.placeOf path → place ≠ t.placeOf settings.history.path →
        result.2.fileAt? place = t.fileAt? place) := by
  intro root stem path result
  have hpath : ∀ sample,
      request.path settings (request.source settings sample) = .ok (some path) :=
    fun sample => (leadsTo_of_parse? hlanguage).directory request settings directory sample hname
      hdirectory
  refine ⟨hpath, isFiledIn_join_iff t language directory root, fun habsolute => ?_,
    fun hdone => ?_⟩
  · exact if_pos (Or.inl (isAbsolute_fileName habsolute _))
  · obtain ⟨text, sample, path', htext, hsample, hpath', hcan, hrun⟩ :=
      exists_run_eq_of_done hrequest hsettings hdone
    obtain rfl : some path = path' := Except.ok.inj ((hpath sample).symm.trans hpath')
    have hresult : result = (.done (writtenLine path (request.source settings sample)),
        remember settings request now text (request.source settings sample).language
          (delivered t (request.source settings sample) (some path))) := hrun
    rw [hresult]
    refine ⟨text, sample, htext, hsample, rfl, fun hplace => ?_,
      fun place hplace hhistory => ?_⟩
    · have hreceived : received (printedFor (request.source settings sample) (some path))
          (remember settings request now text (request.source settings sample).language
            (delivered t (request.source settings sample) (some path))) (some path) =
          some (.text ((request.source settings sample).code ++ "\n")) :=
        received_remember_delivered now text hcan (by simpa using hplace)
      rwa [received, placeOf_remember, placeOf_delivered] at hreceived
    · rw [← placeOf_delivered t (request.source settings sample) (some path)] at hhistory
      exact (fileAt?_remember_of_ne _ _ _ hhistory).trans
        (fileAt?_delivered_of_ne _ (by simpa using hplace))

/-- A root of two words, in a directory that is yet to be made, and a root that leads away from
it. -/
theorem code_is_filed_in_directory_iff_two_words :
    let t : Tree :=
      { workingDirectory := ["work"], nodes := [(["work", "in.json"], .file (.text "1"))] }
    let result := (run (m := StateM Tree) (pure none) (pure 7)
      ["generate", "in.json", "--root", "LineItem", "-l", "kt", "--out-dir", "models"]).run t
    result.1 = .done "  + models/line_item.kt (Kotlin, 1 lines)\n" ∧
      IsFiledIn t "models" "models/line_item.kt" "line_item" ".kt" ∧
      result.2.fileAt? ["work", "models", "line_item.kt"] = some (.text "1\n") ∧
      result.2.fileAt? ["work", "in.json"] = some (.text "1") ∧
      Path.join "models" (Name.snakeCase "/x" ++ ".kt") = Name.snakeCase "/x" ++ ".kt" := by
  intro t result
  let request (root : String) : GenerateRequest :=
    { input := "in.json", language := some "kt", root := some root,
      destination := .directory "models" }
  let arguments (root : String) : List String :=
    ["generate", "in.json", "--root", root, "-l", "kt", "--out-dir", "models"]
  have hsettings : ((Settings.discover (m := StateM Tree) none).run t).1 = .ok {} := rfl
  have hlanguage : Language.parse? "kt" = some .kotlin := by decide
  have hrequest : Invocation.ofArguments? (arguments "LineItem") =
      some ⟨none, .generate (request "LineItem")⟩ := by decide
  have haway : Invocation.ofArguments? (arguments "/x") =
      some ⟨none, .generate (request "/x")⟩ := by decide
  obtain ⟨-, hfiled, -, hdelivered⟩ :=
    code_is_filed_in_directory_iff none 7 .utc hrequest hsettings rfl rfl hlanguage
  obtain ⟨-, -, habsolute, -⟩ :=
    code_is_filed_in_directory_iff none 7 .utc haway hsettings rfl rfl hlanguage
  have hdone : result.1 = .done "  + models/line_item.kt (Kotlin, 1 lines)\n" := by decide
  have hpath : Path.join "models" (Name.snakeCase "LineItem" ++ Language.kotlin.extension) =
      "models/line_item.kt" := by decide
  have hstem : Name.snakeCase "LineItem" = "line_item" := by decide
  have hplace : t.placeOf "models/line_item.kt" = ["work", "models", "line_item.kt"] := by
    decide
  have hhistory : t.placeOf ({} : Settings).history.path =
      ["work", ".typesmith", "history.json"] := by
    decide
  obtain ⟨text, sample, htext, hsample, -, hcode, hothers⟩ :=
    hdelivered fun failure hfailed => Outcome.noConfusion (hdone.symm.trans hfailed)
  have hinput : input? none t "in.json" = some "1" := by decide
  obtain rfl : "1" = text := Option.some.inj (hinput.symm.trans htext)
  obtain rfl : .number (.int 1) = sample := Option.some.inj hsample
  have hroot : (request "LineItem").rootName {} = "LineItem" := rfl
  rw [hroot, hpath, hstem] at hfiled
  rw [hroot, hpath, hplace, hhistory] at hcode hothers
  refine ⟨hdone, hfiled.mpr ⟨by decide, by decide, by decide⟩, ?_, ?_,
    habsolute (by decide)⟩
  · rw [hcode (by decide)]
    decide
  · rw [hothers _ (by decide) (by decide)]
    decide

/-- A root with two dots and a slash in it takes its file out of the directory, where none is
left. -/
theorem code_leaves_directory :
    let t : Tree :=
      { workingDirectory := ["work"], nodes := [(["work", "in.json"], .file (.text "1"))] }
    let result := (run (m := StateM Tree) (pure none) (pure 7)
      ["generate", "in.json", "--root", "../x", "--out-dir", "gen", "--no-history"]).run t
    result.1 = .done "  + gen/../x.ts (TypeScript, 1 lines)\n" ∧
      t.placeOf "gen/../x.ts" = ["work", "x.ts"] ∧
      result.2.files = [("x.ts", .text "1\n"), ("in.json", .text "1")] := by
  intro t result
  exact ⟨by decide, by decide, by decide⟩

end Command

end SampleTypes
