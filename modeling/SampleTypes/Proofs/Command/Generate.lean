import SampleTypes.Command.Run
import SampleTypes.Proofs.Files.Frame
import SampleTypes.Proofs.History.Store

/-! What `generate` leaves behind on a tree. All that can fail comes before the first change to a
file that lasts, and what is remembered comes after the code was delivered, so a run does all of
it or nothing. -/
namespace SampleTypes.Command

open Files

variable {t t' : Tree} {settings : Settings} {request : GenerateRequest}

/-! Programs on a tree. -/

lemma run_readText (path : String) (t : Tree) :
    (FileSystem.readText (m := StateM Tree) path).run t =
      ((t.read? path).bind Content.text?, t) := rfl

lemma run_isFile (path : String) (t : Tree) :
    (FileSystem.isFile (m := StateM Tree) path).run t = ((t.read? path).isSome, t) := rfl

lemma run_writeText (path text : String) (t : Tree) :
    (FileSystem.writeText (m := StateM Tree) path text).run t =
      ((t.write path (.text text)).2, (t.write path (.text text)).1) := rfl

section

variable {α β : Type} {x : ExceptT Failure (StateM Tree) α}
  {f : α → ExceptT Failure (StateM Tree) β}

lemma run_bind_ok {a : α} (h : x.run.run t = (.ok a, t')) :
    (x >>= f).run.run t = (f a).run.run t' := by
  rw [ExceptT.run_bind, StateT.run_bind, h]
  rfl

lemma run_bind_error {failure : Failure} (h : x.run.run t = (.error failure, t')) :
    (x >>= f).run.run t = (.error failure, t') := by
  rw [ExceptT.run_bind, StateT.run_bind, h]
  rfl

lemma run_lift (x : StateM Tree α) (t : Tree) :
    (liftM x : ExceptT Failure (StateM Tree) α).run.run t = (.ok (x.run t).1, (x.run t).2) := rfl

end

/-- The text that is read from the input, if any. -/
def input? (standardInput : Option String) (t : Tree) (path : String) : Option String :=
  if path = "-" then standardInput else (t.read? path).bind Content.text?

lemma run_readInput_some {standardInput : Option String} {path text : String}
    (h : input? standardInput t path = some text) :
    (readInput (m := StateM Tree) (pure standardInput) path).run.run t = (.ok text, t) := by
  rw [input?] at h
  rw [readInput]
  split_ifs at h ⊢ <;> refine (run_bind_ok rfl).trans ?_ <;> rw [h] <;> rfl

/-- What is said when there is no text. -/
def inputFailure (path : String) : Failure :=
  if path = "-" then .unreadableStandardInput else .unreadableInput path

lemma run_readInput_none {standardInput : Option String} {path : String}
    (h : input? standardInput t path = none) :
    (readInput (m := StateM Tree) (pure standardInput) path).run.run t =
      (.error (inputFailure path), t) := by
  rw [input?] at h
  rw [readInput, inputFailure]
  split_ifs at h ⊢ <;> refine (run_bind_ok rfl).trans ?_ <;> rw [h] <;> rfl

/-- What is printed about code that was delivered: the code itself, or a line about its file. -/
def printedFor (source : Source) : Option String → String
  | none => source.code ++ "\n"
  | some path => writtenLine path source

/-- The tree with code delivered to a file, or as it was. -/
def delivered (t : Tree) (source : Source) : Option String → Tree
  | none => t
  | some path => (t.write path (.text (source.code ++ "\n"))).1

lemma run_deliver_file (t : Tree) (path : String) (source : Source) :
    (deliver (m := StateM Tree) (some path) source).run.run t =
      (if (t.write path (.text (source.code ++ "\n"))).2 then .ok (writtenLine path source)
        else .error (.unwritable path), delivered t source (some path)) := by
  rw [deliver]
  refine (run_bind_ok (run_lift _ t)).trans ?_
  rw [run_writeText, delivered]
  split_ifs <;> rfl

lemma run_deliver {path : Option String} (source : Source) (h : ∀ file ∈ path, t.CanWrite file) :
    (deliver (m := StateM Tree) path source).run.run t =
      (.ok (printedFor source path), delivered t source path) := by
  cases path with
  | none => rfl
  | some file => rw [run_deliver_file, if_pos (Tree.write_succeeds_iff.mpr (h file rfl))]; rfl

/-- The tree with a sample in the history, if it is to be remembered: what a save makes of it. -/
def remember (settings : Settings) (request : GenerateRequest) (now : Int) (text : String)
    (language : Language) (t : Tree) : Tree :=
  if settings.history.enabled ∧ request.remembered then
    ((settings.history.store.save (m := StateM Tree) now generateFeature text
      [("language", .string language.id)]).run t).2
  else t

/-! What stands in the way of a run. -/

/-- Why a run fails. Nothing about the history is among the reasons. -/
inductive Hindrance (standardInput : Option String) (t : Tree) (settings : Settings)
    (request : GenerateRequest) : Failure → Prop
  | input (htext : input? standardInput t request.input = none) :
    Hindrance standardInput t settings request (inputFailure request.input)
  | sample {text : String} (htext : input? standardInput t request.input = some text)
    (hsample : Json.parse? text = none) : Hindrance standardInput t settings request .invalidSample
  | directory {text : String} {sample : Json} {directory : String}
    (htext : input? standardInput t request.input = some text)
    (hsample : Json.parse? text = some sample)
    (hdestination : request.destination = .directory directory)
    (hlanguage : Language.extension? (request.languageId settings) = none) :
    Hindrance standardInput t settings request (.unknownExtension (request.languageId settings))
  | file {text : String} {sample : Json} {path : String}
    (htext : input? standardInput t request.input = some text)
    (hsample : Json.parse? text = some sample)
    (hpath : request.path settings (request.source settings sample) = .ok (some path))
    (hcannot : ¬ t.CanWrite path) :
    Hindrance standardInput t settings request (.unwritable path)

lemma path_of_directory {directory : String} {source : Source}
    (hdestination : request.destination = .directory directory)
    (hlanguage : Language.extension? (request.languageId settings) = none) :
    request.path settings source = .error (.unknownExtension (request.languageId settings)) := by
  simp [GenerateRequest.path, hdestination, hlanguage]

lemma exists_directory_of_path {source : Source} {failure : Failure}
    (h : request.path settings source = .error failure) :
    ∃ directory, request.destination = .directory directory ∧
      Language.extension? (request.languageId settings) = none := by
  rw [GenerateRequest.path] at h
  split at h
  · contradiction
  · contradiction
  · next directory hdestination =>
    dsimp only at h
    split_ifs at h with hnone
    exact ⟨directory, hdestination, Option.isNone_iff_eq_none.mp hnone⟩

section

variable {standardInput : Option String} {text : String} {sample : Json}

/-- With nothing in its way, a run has a text, a sample and a place for its code. -/
lemma exists_of_not_hindrance
    (h : ∀ failure, ¬ Hindrance standardInput t settings request failure) :
    ∃ text sample path, input? standardInput t request.input = some text ∧
      Json.parse? text = some sample ∧
      request.path settings (request.source settings sample) = .ok path ∧
      ∀ file ∈ path, t.CanWrite file := by
  cases htext : input? standardInput t request.input with
  | none => exact absurd (.input htext) (h _)
  | some text =>
    cases hsample : Json.parse? text with
    | none => exact absurd (.sample htext hsample) (h _)
    | some sample =>
      cases hpath : request.path settings (request.source settings sample) with
      | error failure =>
        obtain ⟨directory, hdestination, hlanguage⟩ := exists_directory_of_path hpath
        exact absurd (.directory htext hsample hdestination hlanguage) (h _)
      | ok path =>
        refine ⟨text, sample, path, rfl, hsample, hpath, ?_⟩
        rintro file rfl
        by_contra hcannot
        exact h _ (.file htext hsample hpath hcannot)

/-- A run that something is in the way of fails for that reason and changes no file. -/
lemma run_generate_of_hindrance (now : Int) {failure : Failure}
    (h : Hindrance standardInput t settings request failure) :
    ∃ t', (generate (m := StateM Tree) (pure standardInput) (pure now) settings request).run.run t =
      (.error failure, t') ∧ t'.fileAt? = t.fileAt? := by
  rw [generate]
  cases h with
  | input htext => exact ⟨t, run_bind_error (run_readInput_none htext), rfl⟩
  | sample htext hsample =>
    refine ⟨t, (run_bind_ok (run_readInput_some htext)).trans ?_, rfl⟩
    rw [hsample]
    rfl
  | directory htext hsample hdestination hlanguage =>
    refine ⟨t, (run_bind_ok (run_readInput_some htext)).trans ?_, rfl⟩
    rw [hsample]
    dsimp only
    rw [path_of_directory hdestination hlanguage]
    rfl
  | @file text sample path htext hsample hpath hcannot =>
    have hfails :
        ¬(t.write path (.text ((request.source settings sample).code ++ "\n"))).2 = true :=
      fun hdone => hcannot (Tree.write_succeeds_iff.mp hdone)
    refine ⟨delivered t (request.source settings sample) (some path), ?_, ?_⟩
    · refine (run_bind_ok (run_readInput_some htext)).trans ?_
      rw [hsample]
      dsimp only
      rw [hpath]
      refine (run_bind_ok rfl).trans (run_bind_error ?_)
      rw [run_deliver_file, if_neg hfails]
    · rw [delivered, Tree.fileAt?_write, if_neg hfails]

/-- Any other run delivers its code and then remembers its text. -/
lemma run_generate_done (now : Int) {path : Option String}
    (htext : input? standardInput t request.input = some text)
    (hsample : Json.parse? text = some sample)
    (hpath : request.path settings (request.source settings sample) = .ok path)
    (hcan : ∀ file ∈ path, t.CanWrite file) :
    (generate (m := StateM Tree) (pure standardInput) (pure now) settings request).run.run t =
      (.ok (printedFor (request.source settings sample) path),
        remember settings request now text (request.source settings sample).language
          (delivered t (request.source settings sample) path)) := by
  rw [generate]
  refine (run_bind_ok (run_readInput_some htext)).trans ?_
  rw [hsample]
  dsimp only
  rw [hpath]
  refine (run_bind_ok rfl).trans ?_
  refine (run_bind_ok (run_deliver _ hcan)).trans ?_
  rw [remember]
  split_ifs <;> rfl

end

/-! What a run leaves. -/

/-- What arrives where code goes: what is printed, or what the file holds. -/
def received (output : String) (t : Tree) : Option String → Option Content
  | none => some (.text output)
  | some path => t.fileAt? (t.placeOf path)

section

variable {path : Option String} {place : List String}

lemma placeOf_delivered (t : Tree) (source : Source) (path : Option String) (other : String) :
    (delivered t source path).placeOf other = t.placeOf other := by
  cases path with
  | none => rfl
  | some file => exact Tree.placeOf_write _ t file other

lemma fileAt?_delivered_of_ne (source : Source) (h : ∀ file ∈ path, place ≠ t.placeOf file) :
    (delivered t source path).fileAt? place = t.fileAt? place := by
  cases path with
  | none => rfl
  | some file => exact Tree.fileAt?_write_of_ne _ (h file rfl)

lemma placeOf_remember (now : Int) (text : String) (language : Language) (t : Tree)
    (other : String) :
    (remember settings request now text language t).placeOf other = t.placeOf other := by
  rw [remember]
  split_ifs
  · exact settings.history.store.placeOf_save t now generateFeature text _ other
  · rfl

/-- To remember a sample changes the history file at most. -/
lemma fileAt?_remember_of_ne (now : Int) (text : String) (language : Language)
    (h : place ≠ t.placeOf settings.history.path) :
    (remember settings request now text language t).fileAt? place = t.fileAt? place := by
  rw [remember]
  split_ifs
  · exact settings.history.store.fileAt?_save_of_ne now generateFeature text _ h
  · rfl

/-- Code arrives the same wherever it goes, and a sample that is remembered leaves it alone. -/
lemma received_remember_delivered {source : Source} (now : Int) (text : String)
    (hcan : ∀ file ∈ path, t.CanWrite file)
    (hplaces : ∀ file ∈ path, t.placeOf file ≠ t.placeOf settings.history.path) :
    received (printedFor source path)
      (remember settings request now text source.language (delivered t source path)) path =
        some (.text (source.code ++ "\n")) := by
  cases path with
  | none => rfl
  | some file =>
    have hne : t.placeOf file ≠ (delivered t source (some file)).placeOf settings.history.path := by
      rw [placeOf_delivered]
      exact hplaces file rfl
    rw [received, placeOf_remember, placeOf_delivered, fileAt?_remember_of_ne _ _ _ hne, delivered,
      Tree.fileAt?_write_self, if_pos (Tree.write_succeeds_iff.mpr (hcan file rfl))]

/-- Delivered code does not change what becomes of the history. -/
lemma fileAt?_remember_delivered (source : Source) (now : Int) (text : String)
    (h : ∀ file ∈ path, t.Finds settings.history.path ∧ t.Apart file settings.history.path) :
    (remember settings request now text source.language (delivered t source path)).fileAt?
        (t.placeOf settings.history.path) =
      (remember settings request now text source.language t).fileAt?
        (t.placeOf settings.history.path) := by
  cases path with
  | none => rfl
  | some file =>
    obtain ⟨hfinds, hapart⟩ := h file rfl
    rw [remember, remember]
    split_ifs
    · exact settings.history.store.fileAt?_save_write now generateFeature text _ _ hfinds hapart
    · exact Tree.fileAt?_write_of_ne _ hapart.ne.symm

end

/-- What a run leaves that delivers the code for a sample. -/
structure Delivery (settings : Settings) (request : GenerateRequest) (now : Int) (t : Tree)
    (text : String) (sample : Json) (path : Option String) (result : Outcome × Tree) : Prop where
  outcome : result.1 = .done (printedFor (request.source settings sample) path)
  /-- The code arrives as it would anywhere else. -/
  code : ∀ destination, received result.1.output result.2 path =
    some (.text (({ request with destination }.source settings sample).code ++ "\n"))
  /-- The history is saved in the tree that has the code. -/
  tree : result.2 = remember settings request now text (request.source settings sample).language
    (delivered t (request.source settings sample) path)
  /-- In the tree before, a save makes the same of a history that can be read, and of one that is
  yet to be made if neither file is in the way of the other. -/
  history : (∀ file ∈ path, (t.read? settings.history.path).isSome ∨
      t.Finds settings.history.path ∧ t.Apart file settings.history.path) →
    result.2.fileAt? (t.placeOf settings.history.path) =
      (remember settings request now text (request.source settings sample).language t).fileAt?
        (t.placeOf settings.history.path)
  unremembered : ¬ (settings.history.enabled ∧ request.remembered) →
    result.2.fileAt? (t.placeOf settings.history.path) =
      t.fileAt? (t.placeOf settings.history.path)
  others : ∀ place, place ≠ t.placeOf settings.history.path →
    (∀ file ∈ path, place ≠ t.placeOf file) → result.2.fileAt? place = t.fileAt? place

lemma delivery_of_run {standardInput : Option String} (now : Int) {text : String} {sample : Json}
    {path : Option String} (htext : input? standardInput t request.input = some text)
    (hsample : Json.parse? text = some sample)
    (hpath : request.path settings (request.source settings sample) = .ok path)
    (hcan : ∀ file ∈ path, t.CanWrite file)
    (hplaces : ∀ file ∈ path, t.placeOf file ≠ t.placeOf settings.history.path) :
    let result :=
      (generate (m := StateM Tree) (pure standardInput) (pure now) settings request).run.run t
    Delivery settings request now t text sample path (.ofExcept result.1, result.2) := by
  rw [run_generate_done now htext hsample hpath hcan]
  refine ⟨rfl, fun _ => received_remember_delivered now text hcan hplaces, rfl, fun hhistory => ?_,
    fun hforgotten => ?_, fun place hplace hfile => ?_⟩
  · refine fileAt?_remember_delivered _ now text fun file hfile => ?_
    obtain hread | hboth := hhistory file hfile
    · obtain ⟨content, hread⟩ := Option.isSome_iff_exists.mp hread
      exact ⟨Tree.finds_of_read? hread,
        Tree.apart_of_read? (hcan file hfile) hread (hplaces file hfile)⟩
    · exact hboth
  · rw [remember, if_neg hforgotten]
    exact fileAt?_delivered_of_ne _ fun file hfile => (hplaces file hfile).symm
  · rw [← placeOf_delivered t (request.source settings sample) path] at hplace
    exact (fileAt?_remember_of_ne _ _ _ hplace).trans (fileAt?_delivered_of_ne _ hfile)

/-! Command lines. -/

lemma run_load (path : String) (t : Tree) :
    ((Settings.load (m := StateM Tree) path).run t).2 = t := by
  rw [Settings.load, StateT.run_bind, run_readText]
  cases (t.read? path).bind Content.text? <;> rfl

/-- To look for settings changes nothing. -/
lemma run_discover (settingsPath : Option String) (t : Tree) :
    ((Settings.discover (m := StateM Tree) settingsPath).run t).2 = t := by
  cases settingsPath with
  | some path => exact run_load path t
  | none =>
    rw [Settings.discover, StateT.run_bind, run_isFile]
    cases (t.read? Settings.defaultPath).isSome with
    | true => exact run_load _ t
    | false => rfl

lemma run_settings (i : Invocation)
    (h : ((Settings.discover (m := StateM Tree) i.settingsPath).run t).1 = .ok settings) :
    (Invocation.settings (m := StateM Tree) i).run.run t = (.ok settings, t) := by
  have hdiscover :
      (Settings.discover (m := StateM Tree) i.settingsPath).run t = (.ok settings, t) :=
    Prod.ext h (run_discover i.settingsPath t)
  rw [Invocation.settings]
  refine (run_bind_ok (run_lift _ t)).trans ?_
  rw [hdiscover]
  rfl

lemma run_eq_perform (standardInput : Option String) (now : Int) (zone : CivilTime.Zone)
    {arguments : List String} {i : Invocation} (h : Invocation.ofArguments? arguments = some i)
    (t : Tree) :
    (run (m := StateM Tree) (pure standardInput) (pure now) arguments zone).run t =
      let result := (i.perform (m := StateM Tree) (pure standardInput) (pure now) zone).run.run t
      (.ofExcept result.1, result.2) := by
  rw [run, h]
  rfl

/-- A command line that asks for code is `generate` with the settings that are found. -/
lemma run_eq_generate (standardInput : Option String) (now : Int) (zone : CivilTime.Zone)
    {arguments : List String} {settingsPath : Option String}
    (hrequest : Invocation.ofArguments? arguments = some ⟨settingsPath, .generate request⟩)
    (hsettings : ((Settings.discover (m := StateM Tree) settingsPath).run t).1 = .ok settings) :
    (run (m := StateM Tree) (pure standardInput) (pure now) arguments zone).run t =
      let result :=
        (generate (m := StateM Tree) (pure standardInput) (pure now) settings request).run.run t
      (.ofExcept result.1, result.2) := by
  have hperform : (Invocation.perform (m := StateM Tree) (pure standardInput) (pure now) zone
      ⟨settingsPath, .generate request⟩).run.run t =
      (generate (m := StateM Tree) (pure standardInput) (pure now) settings request).run.run t :=
    run_bind_ok (run_settings ⟨settingsPath, .generate request⟩ hsettings)
  rw [run_eq_perform standardInput now zone hrequest, hperform]

/-- A run that asks for code does all of it or nothing. If something is in its way, it fails for
that reason, prints nothing and leaves every file as it was, the history too. Otherwise it
succeeds, whatever becomes of the history: the same code arrives wherever it is asked for, the
history is what a save of the text makes of it, or what it was if nothing is to be remembered, and
no other file changes. -/
theorem generate_all_or_nothing (standardInput : Option String) (now : Int)
    (zone : CivilTime.Zone) {arguments : List String} {settingsPath : Option String}
    {request : GenerateRequest}
    {settings : Settings} {t : Tree}
    (hrequest : Invocation.ofArguments? arguments = some ⟨settingsPath, .generate request⟩)
    (hsettings : ((Settings.discover (m := StateM Tree) settingsPath).run t).1 = .ok settings)
    (hplaces : ∀ sample file,
      request.path settings (request.source settings sample) = .ok (some file) →
        t.placeOf file ≠ t.placeOf settings.history.path) :
    let result := (run (m := StateM Tree) (pure standardInput) (pure now) arguments zone).run t
    (∀ failure, result.1 = .failed failure ↔
      Hindrance standardInput t settings request failure) ∧
    (∀ failure, result.1 = .failed failure →
      result.1.output = "" ∧ result.2.fileAt? = t.fileAt?) ∧
    ((∀ failure, result.1 ≠ .failed failure) → ∃ text sample path,
      input? standardInput t request.input = some text ∧ Json.parse? text = some sample ∧
      request.path settings (request.source settings sample) = .ok path ∧
      Delivery settings request now t text sample path result) := by
  intro result
  have hresult : result = _ := run_eq_generate standardInput now zone hrequest hsettings
  by_cases hopen : ∃ failure, Hindrance standardInput t settings request failure
  · obtain ⟨failure, hfailure⟩ := hopen
    obtain ⟨t', hrun, hfiles⟩ := run_generate_of_hindrance now hfailure
    have hfailed : result = (.failed failure, t') := by rw [hresult, hrun]; rfl
    rw [hfailed]
    refine ⟨fun other => ⟨fun h => ?_, fun hother => ?_⟩, fun _ _ => ⟨rfl, hfiles⟩, fun hnot => ?_⟩
    · obtain rfl : failure = other := Outcome.failed.inj h
      exact hfailure
    · obtain ⟨t'', hrun', -⟩ := run_generate_of_hindrance now hother
      rw [hrun] at hrun'
      obtain rfl : failure = other := Except.error.inj (Prod.mk.inj hrun').1
      rfl
    · exact absurd rfl (hnot failure)
  · have hopen' : ∀ failure, ¬ Hindrance standardInput t settings request failure :=
      not_exists.mp hopen
    obtain ⟨text, sample, path, htext, hsample, hpath, hcan⟩ := exists_of_not_hindrance hopen'
    have hdelivery : Delivery settings request now t text sample path result := by
      rw [hresult]
      refine delivery_of_run now htext hsample hpath hcan ?_
      rintro file rfl
      exact hplaces sample file hpath
    have hdone : ∀ failure, result.1 ≠ .failed failure := by
      intro failure
      rw [hdelivery.outcome]
      exact Outcome.noConfusion
    exact ⟨fun failure => ⟨fun h => absurd h (hdone failure), fun h => absurd h (hopen' failure)⟩,
      fun failure h => absurd h (hdone failure),
      fun _ => ⟨text, sample, path, htext, hsample, hpath, hdelivery⟩⟩

/-- The sample stands in one file, its code goes to another and the history to a third. -/
theorem generate_all_or_nothing_python :
    let t : Tree :=
      { workingDirectory := ["work"], nodes := [(["work", "in.json"], .file (.text "[1]"))] }
    let result := (run (m := StateM Tree) (pure none) (pure 7)
      ["generate", "in.json", "-l", "py", "-o", "out/a.py"]).run t
    result.1 = .done "  + out/a.py (Python, 3 lines)\n" ∧
      result.2.fileAt? ["work", "out", "a.py"] = some (.text "[\n    1\n]\n") ∧
      result.2.fileAt? ["work", "in.json"] = some (.text "[1]") := by
  intro t result
  let request : GenerateRequest :=
    { input := "in.json", language := some "py", destination := .file "out/a.py" }
  let settings : Settings := {}
  have hrequest : Invocation.ofArguments? ["generate", "in.json", "-l", "py", "-o", "out/a.py"] =
      some ⟨none, .generate request⟩ := by decide +kernel
  have hsettings : ((Settings.discover (m := StateM Tree) none).run t).1 = .ok settings := rfl
  have hplaces : ∀ sample file,
      request.path settings (request.source settings sample) = .ok (some file) →
        t.placeOf file ≠ t.placeOf settings.history.path := by
    intro sample file hfile
    obtain rfl : "out/a.py" = file := Option.some.inj (Except.ok.inj hfile)
    decide +kernel
  have hdone : result.1 = .done "  + out/a.py (Python, 3 lines)\n" := by decide +kernel
  obtain ⟨-, -, hdelivered⟩ := generate_all_or_nothing none 7 .utc hrequest hsettings hplaces
  obtain ⟨text, sample, path, htext, hsample, hpath, hdelivery⟩ :=
    hdelivered fun failure hfailed => Outcome.noConfusion (hdone.symm.trans hfailed)
  have hinput : input? none t request.input = some "[1]" := by decide +kernel
  have hparse : Json.parse? "[1]" = some (.array [.number (.int 1)]) := rfl
  obtain rfl : "[1]" = text := Option.some.inj (hinput.symm.trans htext)
  obtain rfl : .array [.number (.int 1)] = sample := Option.some.inj (hparse.symm.trans hsample)
  obtain rfl : some "out/a.py" = path := Except.ok.inj hpath
  have hcode : (request.source settings (.array [.number (.int 1)])).code = "[\n    1\n]" := by
    decide +kernel
  refine ⟨hdone, ?_, ?_⟩
  · have hreceived := hdelivery.code request.destination
    have hplace : result.2.placeOf "out/a.py" = ["work", "out", "a.py"] := by decide +kernel
    rw [hcode, received, hplace] at hreceived
    exact hreceived
  · refine (hdelivery.others ["work", "in.json"] (by decide +kernel) ?_).trans (by decide +kernel)
    rintro file ⟨rfl⟩
    decide +kernel

end SampleTypes.Command
