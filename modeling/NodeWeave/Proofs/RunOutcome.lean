import NodeWeave.CommandLine.Run
import NodeWeave.Proofs.DocumentTexts
import NodeWeave.Proofs.FileWriting

/-!
# What a run leaves behind

A run is a chain of steps, each of which may stop it, and only the last one has an effect:
`run_cases` says that a run has stopped with nothing printed and the files as they were,
or has come to a program and delivers it.  The program is written before it is printed, so
a run can only be trusted to have no effect where printing does not fail, and where nothing
comes out but what is printed: the standard output is `Faithful`.  Then delivering fails
only where the program cannot be written (`Faithful.deliver_ending`), and has printed nothing
(`Faithful.deliver_failed`).  It touches a file nevertheless where the program keeps a half,
but a program from documents without halves keeps none (`Compiles.encode?`).  A program that
is delivered is in the file that was named, unless that is a device
(`Faithful.delivered_of_ending`).
-/

namespace NodeWeave

/-! ## Reading -/

namespace FileTree

variable {t : FileTree} {p : Path} {contents : ByteArray} {text : List Char} {doc : Value}

/-- The document that a file holds, if it holds one. -/
def document? (contents : ByteArray) : Option Value :=
  (decodeText contents).toOption.bind fun text => (Json.parse text).toOption

/-- Do the documents in the files, and those that a device gives, keep no halves? -/
def isHalfFree (t : FileTree) : Bool :=
  let isWhole (contents : ByteArray) : Bool :=
    (document? contents).all fun doc => doc.allTexts Text.isHalfFree
  (t.files.all fun file => isWhole file.2) && t.devices.all fun device => isWhole device.2.contents

theorem file?_of_follow {dir : Location} {parts : List String}
    (h : t.follow dir parts = .ok (.file contents)) : ∃ l, t.file? l = some contents := by
  induction parts generalizing dir with
  | nil => cases h
  | cons part rest ih =>
      rw [follow] at h
      split at h
      · exact ih h
      · split at h
        · cases h
        · dsimp only at h
          split at h
          · rename_i found hfound
            split at h
            · cases h
              exact ⟨_, hfound⟩
            · cases h
          · split at h
            · exact ih h
            · cases h

/-- The text of a file comes from what the path leads to. -/
theorem readText_eq_ok (h : t.readText p = .ok text) :
    p.hasNull = false ∧
      ∃ contents, t.find p = .ok (.file contents) ∧ decodeText contents = .ok text := by
  unfold readText at h
  split at h
  · cases h
  · rename_i hnull
    split at h
    · cases h
    · cases h
    · rename_i contents hfind
      exact ⟨by simpa using hnull, contents, hfind, h⟩

/-- What can be read is there. -/
theorem exists?_of_readText (h : t.readText p = .ok text) : t.exists? p = .ok true := by
  obtain ⟨hnull, contents, hfind, _⟩ := readText_eq_ok h
  simp [exists?, hnull, hfind]

/-- **A document that is read keeps no half** when those in the files do not. -/
theorem allTexts_of_readText (ht : t.isHalfFree = true) (htext : t.readText p = .ok text)
    (hdoc : Json.parse text = .ok doc) : doc.allTexts Text.isHalfFree = true := by
  obtain ⟨_, contents, hfind, hdecode⟩ := readText_eq_ok htext
  have hdocument : document? contents = some doc := by
    rw [document?, hdecode]
    show (Json.parse text).toOption = some doc
    rw [hdoc]
    rfl
  unfold find at hfind
  split at hfind
  · cases hfind
  · obtain ⟨l, hl⟩ := file?_of_follow hfind
    obtain ⟨hfiles, hdevices⟩ := Bool.and_eq_true_iff.mp ht
    unfold file? at hl
    split at hl
    · rename_i device hfound
      cases hl
      have hall := List.all_eq_true.mp hdevices _ (Table.mem_of_get? hfound)
      simpa [hdocument] using hall
    · have hall := List.all_eq_true.mp hfiles _ (Table.mem_of_get? hl)
      simpa [hdocument] using hall

end FileTree

namespace CommandLine

variable {platform : Platform} {words : List String} {files : FileTree}
  {env : Table String String} {now : Moment} {a : Arguments} {s : Settings} {c merged : Catalog}
  {doc : Value} {report : Document.Report} {source errors : String} {fault : Fault}

theorem textsIn_mergeFiles {paths : List (Option String)} (hfiles : files.isHalfFree = true)
    (hc : c.TextsIn Text.isHalfFree) (h : mergeFiles files c paths = (merged, none)) :
    merged.TextsIn Text.isHalfFree := by
  induction paths generalizing c with
  | nil =>
      cases h
      exact hc
  | cons path rest ih =>
      cases path with
      | none => cases h
      | some path =>
          rw [mergeFiles] at h
          split at h
          · cases h
          · rename_i next hmerge
            refine ih ?_ h
            unfold Catalog.mergeFile at hmerge
            split at hmerge
            · cases hmerge
            · rename_i text htext
              unfold Catalog.mergeText at hmerge
              split at hmerge
              · cases hmerge
              · rename_i doc hdoc
                exact hc.merge (FileTree.allTexts_of_readText hfiles htext hdoc) hmerge

/-! ## Coming to a program -/

/-- A command line leads to a program: the arguments and the settings can be read, the
catalogs merged, and the program made for the graph that the document describes. -/
structure Compiles (platform : Platform) (words : List String) (files : FileTree)
    (env : Table String String) (now : Moment) (a : Arguments) (s : Settings) (c : Catalog)
    (doc : Value) (report : Document.Report) (source : String) : Prop where
  arguments : Invocation.ofWords words = .compile a
  settings : Settings.load platform.variableFiles files env none = .ok s
  level : logFault? platform s = none
  named : catalogPaths s a ≠ []
  catalogs : mergeFiles files {} (catalogPaths s a) = (c, none)
  document : (files.readText (Path.ofText a.graph)).bind Document.ofFileText = .ok doc
  loaded : (Document.loadWithin .direct c Graph.empty doc).result = .ok report
  program :
    Program.sourceWithin Nesting.direct.ofText c
      (Document.loadWithin .direct c Graph.empty doc).state
      (a.dataLimit.getD (.int s.dataLimit)) now = .ok source

/-- **A program from files without halves can be written.** -/
theorem Compiles.encode? (hfiles : files.isHalfFree = true)
    (h : Compiles platform words files env now a s c doc report source) :
    ∃ contents, Utf8.encode? source = some contents := by
  have hc : c.TextsIn Text.isHalfFree :=
    textsIn_mergeFiles hfiles (Catalog.textsIn_empty (by decide)) h.catalogs
  obtain ⟨text, htext, hread⟩ := bind_eq_ok h.document
  obtain ⟨v, hv, hread⟩ := bind_eq_ok hread
  obtain ⟨_, _, hread⟩ := bind_eq_ok hread
  cases hread
  have hparse : Json.parse text = .ok doc := by
    cases hparse : Json.parse text with
    | ok w =>
        rw [hparse] at hv
        cases hv
        rfl
    | error e =>
        rw [hparse] at hv
        cases hv
  exact Utf8.exists_encode? (Program.isHalfFree_source hc
    (FileTree.allTexts_of_readText hfiles htext hparse) h.loaded h.program)

/-- A run that stopped before it had any effect. -/
structure Stopped (files : FileTree) (r : Run) : Prop where
  ending : r.ending ≠ .status 0
  output : r.output = ""
  kept : r.files = files

theorem stopped_failWith (files : FileTree) (errors message : String) :
    Stopped files (failWith files errors message) :=
  ⟨nofun, rfl, rfl⟩

theorem stopped_endBy (files : FileTree) (errors : String) (cause : Fault) :
    Stopped files (endBy files errors cause) :=
  ⟨nofun, rfl, rfl⟩

theorem stopped_catalogFailed (files : FileTree) (path : String) (fault : Fault) :
    Stopped files (catalogFailed files path fault) := by
  unfold catalogFailed
  split
  · exact stopped_failWith ..
  · split
    · exact stopped_failWith ..
    · exact stopped_endBy ..

theorem stopped_documentFailed (files : FileTree) (fault : Fault) :
    Stopped files (documentFailed files fault) := by
  unfold documentFailed
  split
  · exact stopped_failWith ..
  · exact stopped_failWith ..
  · exact stopped_endBy ..

/-- **What a run comes to**: unless help is asked for, it stops without an effect, or has
a program to deliver. -/
theorem run_cases (hhelp : Invocation.ofWords words ≠ .help) :
    Stopped files (run platform words files env now) ∨
      ∃ a s c doc report source,
        Compiles platform words files env now a s c doc report source ∧
        run platform words files env now =
          deliver platform files (warningText report) a source := by
  unfold run
  split
  · exact absurd ‹_› hhelp
  · exact .inl ⟨nofun, rfl, rfl⟩
  rename_i a harguments
  split
  · exact .inl (stopped_endBy ..)
  rename_i s hsettings
  split
  · exact .inl (stopped_endBy ..)
  rename_i hlevel
  unfold compile
  dsimp only
  split
  · exact .inl (stopped_failWith ..)
  rename_i hnamed
  split
  · exact .inl (stopped_catalogFailed ..)
  rename_i c hcatalogs
  split
  · exact .inl (stopped_endBy ..)
  · exact .inl (stopped_failWith ..)
  split
  · exact .inl (stopped_documentFailed ..)
  rename_i doc hdocument
  unfold compileDocument
  dsimp only
  split
  · exact .inl (stopped_endBy ..)
  rename_i report hloaded
  split
  · split
    · exact .inl (stopped_failWith ..)
    · exact .inl (stopped_endBy ..)
  rename_i source hprogram
  exact .inr ⟨a, s, c, doc, report, source, ⟨harguments, hsettings, hlevel,
    by simpa using hnamed, hcatalogs, hdocument, hloaded, hprogram⟩, rfl⟩

/-- A run that comes to a program delivers it. -/
theorem Compiles.run_eq (h : Compiles platform words files env now a s c doc report source) :
    run platform words files env now =
      deliver platform files (warningText report) a source := by
  obtain ⟨text, htext, _⟩ := bind_eq_ok h.document
  simp only [run, h.arguments, h.settings, h.level, compile, List.isEmpty_iff, h.named, if_false,
    h.catalogs, FileTree.exists?_of_readText htext, h.document, compileDocument, h.loaded,
    h.program]

/-! ## Delivering a program -/

/-- The path of the file to write; the empty path where none is named. -/
def Arguments.target (a : Arguments) : Path :=
  Path.ofText (a.out.getD "")

/-- Is there a file to write? -/
def Arguments.Writes (a : Arguments) : Prop :=
  a.out.getD "" ≠ ""

instance (a : Arguments) : Decidable a.Writes :=
  inferInstanceAs (Decidable (a.out.getD "" ≠ ""))

/-- The program is printed when that is asked for, and when there is no file to write. -/
def Arguments.Prints (a : Arguments) : Prop :=
  a.print = true ∨ ¬ a.Writes

instance (a : Arguments) : Decidable a.Prints :=
  inferInstanceAs (Decidable (a.print = true ∨ ¬ a.Writes))

/-- **The standard output is faithful**: a device that the program is written to shows
nothing there, and the program comes out there where it is printed. -/
structure Faithful (platform : Platform) (files : FileTree) (a : Arguments) (source : String) :
    Prop where
  silent : a.Writes → ∀ device, files.devices.get? a.target.location = some device →
    (device.write source).1 = ""
  prints : a.Prints → platform.print (source ++ "\n") = (source ++ "\n", none)

/-- A program is delivered: printed where it is to be, and written to the file that is
named, with no other file touched.  A device keeps nothing of it. -/
structure Delivered (files : FileTree) (a : Arguments) (source : String) (r : Run) : Prop where
  output : r.output = if a.Prints then source ++ "\n" else ""
  kept : ¬ a.Writes ∨ (files.devices.get? a.target.location).isSome = true →
    r.files.files = files.files
  written : a.Writes → files.devices.get? a.target.location = none →
    ∃ contents, Utf8.encode? source = some contents ∧
      r.files.find a.target = .ok (.file contents) ∧
      r.files.files = files.files.put a.target.location contents

theorem printed_of_print (before : String)
    (h : platform.print (source ++ "\n") = (source ++ "\n", none)) :
    printed platform files errors before source =
      { output := before ++ (source ++ "\n"), errors, files, ending := .status 0 } := by
  simp [printed, h]

/-- Delivering without a file to write. -/
theorem deliver_of_not_writes (hnone : ¬ a.Writes) :
    deliver platform files errors a source = printed platform files errors "" source := by
  have htarget : a.out.filter (· != "") = none := by
    unfold Arguments.Writes at hnone
    cases h : a.out with
    | none => rfl
    | some path => simpa [h] using hnone
  simp [deliver, htarget]

theorem filter_out_of_writes (hwrites : a.Writes) :
    a.out.filter (· != "") = some (a.out.getD "") := by
  unfold Arguments.Writes at hwrites
  cases h : a.out with
  | none => simp [h] at hwrites
  | some path => simpa [h] using hwrites

/-- Delivering to a file that cannot be written. -/
theorem deliver_of_fault (hwrites : a.Writes)
    (hfault : (files.writeText a.target source).fault = some fault) :
    deliver platform files errors a source =
      { output := (files.writeText a.target source).output, errors
        files := (files.writeText a.target source).files, ending := .fault fault } := by
  unfold Arguments.target at hfault ⊢
  simp [deliver, filter_out_of_writes hwrites, hfault]

namespace Faithful

/-- What is written comes out nowhere else. -/
theorem output_writeText (h : Faithful platform files a source) (hwrites : a.Writes) :
    (files.writeText a.target source).output = "" := by
  cases hdevice : files.devices.get? a.target.location with
  | some device =>
      rcases (FileTree.writeText_of_device hdevice).2 with houtput | houtput
      · exact houtput
      · exact houtput.trans (h.silent hwrites device hdevice)
  | none =>
      cases hfault : (files.writeText a.target source).fault with
      | none =>
          obtain ⟨_, _, houtput, _⟩ := FileTree.writeText_eq_none hdevice hfault
          exact houtput
      | some fault => exact (FileTree.writeText_eq_some hdevice hfault).1

/-- Delivering to a file that can be written. -/
theorem deliver_of_written (h : Faithful platform files a source) (hwrites : a.Writes)
    (hfault : (files.writeText a.target source).fault = none) :
    deliver platform files errors a source =
      { output := if a.Prints then source ++ "\n" else "", errors
        files := (files.writeText a.target source).files, ending := .status 0 } := by
  have houtput := h.output_writeText hwrites
  unfold Arguments.target at hfault houtput ⊢
  simp only [deliver, filter_out_of_writes hwrites, hfault, houtput]
  cases hprint : a.print with
  | true =>
      have hprints : a.Prints := .inl hprint
      rw [if_pos rfl, if_pos hprints, printed_of_print _ (h.prints hprints), String.empty_append]
  | false =>
      have hprints : ¬ a.Prints := by simp [Arguments.Prints, hprint, hwrites]
      rw [if_neg Bool.false_ne_true, if_neg hprints]

/-- Delivering to the standard output alone. -/
theorem deliver_of_printed (h : Faithful platform files a source) (hnone : ¬ a.Writes) :
    deliver platform files errors a source =
      { output := source ++ "\n", errors, files, ending := .status 0 } := by
  rw [deliver_of_not_writes hnone, printed_of_print _ (h.prints (.inr hnone)), String.empty_append]

/-- A program is delivered unless it cannot be written. -/
theorem deliver_ending (h : Faithful platform files a source) :
    (deliver platform files errors a source).ending = .status 0 ↔
      (a.Writes → (files.writeText a.target source).fault = none) := by
  by_cases hwrites : a.Writes
  · cases hfault : (files.writeText a.target source).fault with
    | none => simp [h.deliver_of_written hwrites hfault]
    | some fault => simp [deliver_of_fault hwrites hfault, hwrites]
  · simp [h.deliver_of_printed hwrites, hwrites]

/-- **Where delivering succeeds the program is delivered.** -/
theorem delivered_of_ending (h : Faithful platform files a source)
    (hended : (deliver platform files errors a source).ending = .status 0) :
    Delivered files a source (deliver platform files errors a source) := by
  by_cases hwrites : a.Writes
  · have hfault := h.deliver_ending.mp hended hwrites
    rw [h.deliver_of_written hwrites hfault]
    refine ⟨rfl, fun hkept => ?_, fun _ hplain => ?_⟩
    · obtain ⟨device, hdevice⟩ :=
        Option.isSome_iff_exists.mp (hkept.resolve_left fun hnot => hnot hwrites)
      exact (FileTree.writeText_of_device hdevice).1
    · obtain ⟨contents, hcontents, _, hput, hfind⟩ := FileTree.writeText_eq_none hplain hfault
      exact ⟨contents, hcontents, hfind, hput⟩
  · rw [h.deliver_of_printed hwrites]
    exact ⟨by rw [if_pos (.inr hwrites)], fun _ => rfl, fun hnot _ => absurd hnot hwrites⟩

/-- **Where delivering fails nothing is printed,** and the files are as they were; only for
a program that keeps a half the file is there and empty. -/
theorem deliver_failed (h : Faithful platform files a source)
    (hfailed : (deliver platform files errors a source).ending ≠ .status 0) :
    (deliver platform files errors a source).output = "" ∧
      ((deliver platform files errors a source).files.files = files.files ∨
        Utf8.encode? source = none) := by
  by_cases hwrites : a.Writes
  · cases hfault : (files.writeText a.target source).fault with
    | none => exact absurd (h.deliver_ending.mpr fun _ => hfault) hfailed
    | some fault =>
        rw [deliver_of_fault hwrites hfault]
        refine ⟨h.output_writeText hwrites, ?_⟩
        cases hdevice : files.devices.get? a.target.location with
        | some device => exact .inl (FileTree.writeText_of_device hdevice).1
        | none => exact (FileTree.writeText_eq_some hdevice hfault).2.imp_right And.left
  · exact absurd (h.deliver_ending.mpr fun hnot => absurd hnot hwrites) hfailed

end Faithful

/-! ## The whole run -/

instance (e : Ending) : Decidable (e = .status 0) :=
  match e with
  | .status 0 => isTrue rfl
  | .status (_ + 1) => isFalse nofun
  | .fault _ => isFalse nofun

instance (i : Invocation) : Decidable (i = .help) :=
  match i with
  | .help => isTrue rfl
  | .misuse => isFalse nofun
  | .compile _ => isFalse nofun

/-- **A run delivers its program or leaves nothing.**  Let help not be asked for, the
documents in the files keep no halves, and the standard output be faithful to the program
that the run comes to.  A run that does not end with status 0 has printed nothing and touched
no file.  One that does has come to a program and delivered it, in all that this means
(`Delivered`); and with a program there is only one way to fail, which is that it cannot be
written. -/
theorem run_delivers_or_leaves_nothing (platform : Platform) (words : List String)
    (files : FileTree) (env : Table String String) (now : Moment)
    (hfiles : files.isHalfFree = true) (hhelp : Invocation.ofWords words ≠ .help)
    (hfaithful : ∀ a s c doc report source,
      Compiles platform words files env now a s c doc report source →
        Faithful platform files a source) :
    ((run platform words files env now).ending ≠ .status 0 →
      (run platform words files env now).output = "" ∧
        (run platform words files env now).files.files = files.files) ∧
    ((run platform words files env now).ending = .status 0 →
      ∃ a s c doc report source, Compiles platform words files env now a s c doc report source ∧
        Delivered files a source (run platform words files env now)) ∧
    ∀ a s c doc report source, Compiles platform words files env now a s c doc report source →
      ((run platform words files env now).ending = .status 0 ↔
        (a.Writes → (files.writeText a.target source).fault = none)) := by
  refine ⟨fun hfailed => ?_, fun hended => ?_, fun a s c doc report source h => ?_⟩
  · rcases run_cases hhelp with hstopped | ⟨a, s, c, doc, report, source, h, hrun⟩
    · exact ⟨hstopped.output, by rw [hstopped.kept]⟩
    · rw [hrun] at hfailed ⊢
      obtain ⟨hprinted, hkept | hhalf⟩ := (hfaithful _ _ _ _ _ _ h).deliver_failed hfailed
      · exact ⟨hprinted, hkept⟩
      · obtain ⟨contents, hcontents⟩ := h.encode? hfiles
        rw [hhalf] at hcontents
        cases hcontents
  · rcases run_cases hhelp with hstopped | ⟨a, s, c, doc, report, source, h, hrun⟩
    · exact absurd hended hstopped.ending
    · refine ⟨a, s, c, doc, report, source, h, ?_⟩
      rw [hrun] at hended ⊢
      exact (hfaithful _ _ _ _ _ _ h).delivered_of_ending hended
  · rw [h.run_eq]
    exact (hfaithful _ _ _ _ _ _ h).deliver_ending

/-- A catalog with one type, and a graph with one node of it. -/
def lone : FileTree where
  files := [
    (["types"], ("\x7b\"nodeTypes\": \x7b\"start\": \x7b\"inputs\": " ++
      "[\x7b\"type\": \"exec\", \"code\": \"go\"\x7d]\x7d\x7d\x7d").toUTF8),
    (["graph"], ("\x7b\"nodes\": [\x7b\"id\": 0, \"category\": \"default\", " ++
      "\"type\": \"start\"\x7d]\x7d").toUTF8)]

/-- A time on a leap day. -/
def noon : Moment :=
  { year := 2024, month := 2, day := 29, hour := 12, minute := 0, second := 0, microsecond := 0,
    offset := none }

/-- The program of the lone node at that time. -/
def loneProgram : String :=
  "// Generated Code from Node Graph\n// Generated on: 2024-02-29T12:00:00.000Z\n\ngo"

/-- Surroundings without a file of variables, with an output that shows what it is given. -/
def terminal : Platform where
  variableFiles := { find := fun _ => "", read := fun _ env _ => .ok env }
  hasLog := false
  print := fun text => (text, none)

theorem faithful_terminal (hdevices : files.devices = [(Location.nullDevice, .null)]) :
    Faithful terminal files a source := by
  refine ⟨fun _ device hdevice => ?_, fun _ => rfl⟩
  have hmem := Table.mem_of_get? hdevice
  rw [hdevices, List.mem_singleton, Prod.mk.injEq] at hmem
  rw [hmem.2]
  rfl

/-- The program of the lone node is written to a new directory, and not below a file. -/
theorem run_delivers_or_leaves_nothing_lone :
    lone.isHalfFree = true ∧
    (∃ a s c doc report source,
      Compiles terminal ["graph", "--registry", "types", "--out", "made/program"] lone [] noon
        a s c doc report source ∧
      Delivered lone a source
        (run terminal ["graph", "--registry", "types", "--out", "made/program"] lone [] noon)) ∧
    (run terminal ["graph", "--registry", "types", "--print", "--out", "types/program"]
      lone [] noon).output = "" ∧
    (run terminal ["graph", "--registry", "types", "--print", "--out", "types/program"]
      lone [] noon).files.files = lone.files := by
  have hfiles : lone.isHalfFree = true := by decide +kernel
  refine ⟨hfiles, ?_, ?_⟩
  · exact (run_delivers_or_leaves_nothing terminal _ lone [] noon hfiles (by decide +kernel)
      fun _ _ _ _ _ _ _ => faithful_terminal rfl).2.1 (by decide +kernel)
  · exact (run_delivers_or_leaves_nothing terminal _ lone [] noon hfiles (by decide +kernel)
      fun _ _ _ _ _ _ _ => faithful_terminal rfl).1 (by decide +kernel)

/-- The same files, but the type has half a character for its text. -/
def halved : FileTree :=
  lone.put ["types"] ("\x7b\"nodeTypes\": \x7b\"start\": \x7b\"inputs\": " ++
    "[\x7b\"type\": \"exec\", \"code\": \"\\ud800\"\x7d]\x7d\x7d\x7d").toUTF8

/-- The same files, with a device that shows what is written to it. -/
def mirrored : FileTree :=
  { lone with devices := [(["/", "dev", "stdout"],
      { contents := ByteArray.empty, write := fun text => (text, none) })] }

/-- Surroundings in which nothing can be printed. -/
def mute : Platform :=
  { terminal with print := fun _ => ("", some .unsuitable) }

/-- **Where a run does otherwise.**

* A run that writes to the null device and prints ends with status 0, and there is nothing to
  read where it wrote.
* A run whose program keeps a half fails and leaves an empty file.
* A run that writes to a device which shows everything ends with status 0 and has output
  though nothing was to be printed.
* A run that writes and then fails to print leaves the file. -/
theorem run_not_delivered :
    ((run terminal ["graph", "--registry", "types", "--print", "--out", "/dev/null"]
        lone [] noon).ending = .status 0 ∧
      (run terminal ["graph", "--registry", "types", "--print", "--out", "/dev/null"]
        lone [] noon).output = loneProgram ++ "\n" ∧
      (run terminal ["graph", "--registry", "types", "--print", "--out", "/dev/null"]
        lone [] noon).files.contents? (Path.ofText "/dev/null") = some ByteArray.empty) ∧
    ((run terminal ["graph", "--registry", "types", "--out", "program"]
        halved [] noon).ending ≠ .status 0 ∧
      halved.files.get? ["program"] = none ∧
      (run terminal ["graph", "--registry", "types", "--out", "program"]
        halved [] noon).files.files.get? ["program"] = some ByteArray.empty) ∧
    ((run terminal ["graph", "--registry", "types", "--out", "/dev/stdout"]
        mirrored [] noon).ending = .status 0 ∧
      (run terminal ["graph", "--registry", "types", "--out", "/dev/stdout"]
        mirrored [] noon).output = loneProgram) ∧
    (run mute ["graph", "--registry", "types", "--print", "--out", "program"]
        lone [] noon).ending ≠ .status 0 ∧
      lone.files.get? ["program"] = none ∧
      (run mute ["graph", "--registry", "types", "--print", "--out", "program"]
        lone [] noon).files.files.get? ["program"] = some loneProgram.toUTF8 := by
  decide +kernel

end CommandLine

end NodeWeave
