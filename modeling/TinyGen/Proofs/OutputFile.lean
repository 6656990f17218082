import TinyGen.Proofs.NoMisuse
import TinyGen.Session

/-!
# The output file of a run that fails

The output file is emptied after the input has been decoded and before the program is compiled. So a
run leaves it as it was if the input is no parse tree, and leaves it empty if the program is refused
(`Session.run_failed`); in neither case is another file changed. `Session.refused_program_empties_output`
has a file that loses its content.
-/

namespace TinyGen

/-! ## Entries -/

namespace FileSystem

/-- Where a file is, or would be created. -/
def Place.components? : Place → Option (List String)
  | .directory => none
  | .file components _ => some components
  | .vacant components => some components

private theorem lookup_set (fs : FileSystem) (components other : List String) (entry : FileEntry) :
    (fs.set components entry).entries.lookup other =
      if other = components then some entry else fs.entries.lookup other := by
  rw [set, lookup_cons]
  by_cases h : other = components
  · rw [if_pos h, if_pos h]
  rw [if_neg h, if_neg h]
  induction fs.entries with
  | nil => rfl
  | cons first rest ih =>
    obtain ⟨here, e⟩ := first
    rw [lookup_cons]
    by_cases hhere : here = components
    · rw [List.filter_cons_of_neg (by simpa using hhere), ih, if_neg (hhere ▸ h)]
    · rw [List.filter_cons_of_pos (by simpa using hhere), lookup_cons, ih]

/-- A name that is looked up in its directory, with `rest` after it in the path of a file. -/
structure Ordinary (name : String) (rest : List String) : Prop where
  not_here : ¬ (name = "" ∨ name = ".")
  not_above : name ≠ ".."
  no_slash : ¬ (rest ≠ [] ∧ rest.all (· = ""))
  size_le : ¬ maxNameSize < name.utf8ByteSize

/-- From a directory, names lead to the place of a file: all but the last are those of directories. -/
inductive Leads (fs : FileSystem) : List String → List String → List String → Prop where
  | stay {dir rest components : List String} {name : String} (here : name = "" ∨ name = ".")
      (next : Leads fs dir rest components) : Leads fs dir (name :: rest) components
  | up {dir rest components : List String} (next : Leads fs (above dir) rest components) :
      Leads fs dir (".." :: rest) components
  | enter {dir rest components : List String} {name : String} (ordinary : Ordinary name rest)
      (directory : fs.entries.lookup (dir ++ [name]) = some .directory)
      (next : Leads fs (dir ++ [name]) rest components) : Leads fs dir (name :: rest) components
  | last {dir : List String} {name : String} (ordinary : Ordinary name [])
      (free : fs.entries.lookup (dir ++ [name]) ≠ some .directory) :
      Leads fs dir [name] (dir ++ [name])

variable {fs : FileSystem} {dir names rest components : List String} {name : String}

theorem follow_ordinary (fs : FileSystem) (purpose : Purpose) (dir rest : List String)
    (name : String) : Ordinary name rest →
    fs.follow purpose dir (name :: rest) =
      match fs.entries.lookup (dir ++ [name]), rest with
      | some .directory, rest => fs.follow purpose (dir ++ [name]) rest
      | some (.file content), [] => .ok (.file (dir ++ [name]) content)
      | some (.file _), _ => .error .notDirectory
      | none, [] => .ok (.vacant (dir ++ [name]))
      | none, _ => .error .notFound := by
  intro h
  rewrite [FileSystem.follow, if_neg h.not_here, if_neg h.not_above,
    if_neg fun hw => h.no_slash hw.2, if_neg h.size_le]
  rfl

private theorem leads_of_follow {place : Place} (h : fs.follow .write dir names = .ok place)
    (hp : place.components? = some components) : Leads fs dir names components := by
  induction names generalizing dir with
  | nil => cases h; cases hp
  | cons name rest ih =>
    -- The cases of one name, in the order in which it is looked at.
    by_cases hstay : name = "" ∨ name = "."
    · rw [follow, if_pos hstay] at h
      exact .stay hstay (ih h)
    by_cases hup : name = ".."
    · rw [follow, if_neg hstay, if_pos hup] at h
      exact hup ▸ .up (ih h)
    by_cases hslash : rest ≠ [] ∧ rest.all (· = "")
    · rw [follow, if_neg hstay, if_neg hup, if_pos ⟨rfl, hslash⟩] at h
      cases h
    by_cases hsize : maxNameSize < name.utf8ByteSize
    · rw [follow, if_neg hstay, if_neg hup, if_neg fun hw => hslash hw.2, if_pos hsize] at h
      cases h
    have hname : Ordinary name rest := ⟨hstay, hup, hslash, hsize⟩
    rw [follow_ordinary _ _ _ _ _ hname] at h
    cases hl : fs.entries.lookup (dir ++ [name]) with
    | none =>
      rw [hl] at h
      cases rest with
      | nil =>
        cases h
        cases hp
        exact .last hname (by rw [hl]; nofun)
      | cons next rest => cases h
    | some entry =>
      rw [hl] at h
      cases entry with
      | directory => exact .enter hname hl (ih h)
      | file content =>
        cases rest with
        | nil =>
          cases h
          cases hp
          exact .last hname (by rw [hl]; nofun)
        | cons next rest => cases h

theorem Leads.free (h : Leads fs dir names components) :
    fs.entries.lookup components ≠ some .directory := by
  induction h with
  | stay here next ih => exact ih
  | up next ih => exact ih
  | enter ordinary directory next ih => exact ih
  | last ordinary free => exact free

/-- A file in the place that a path leads to does not change the way there. -/
theorem Leads.set (h : Leads fs dir names components) (content : ByteArray) :
    Leads (fs.set components (.file content)) dir names components := by
  induction h with
  | stay here next ih => exact .stay here ih
  | up next ih => exact .up ih
  | enter ordinary directory next ih =>
    refine .enter ordinary ?_ ih
    rw [lookup_set, if_neg, directory]
    rintro rfl
    exact next.free directory
  | last ordinary free => exact .last ordinary (by rw [lookup_set, if_pos rfl]; nofun)

theorem Leads.follow (h : Leads fs dir names components) {content : ByteArray}
    (hfile : fs.entries.lookup components = some (.file content)) (purpose : Purpose) :
    fs.follow purpose dir names = .ok (.file components content) := by
  induction h with
  | stay here next ih => rw [FileSystem.follow, if_pos here]; exact ih hfile
  | up next ih =>
    rw [FileSystem.follow, if_neg (by decide), if_pos rfl]
    exact ih hfile
  | enter ordinary directory next ih =>
    rw [follow_ordinary _ _ _ _ _ ordinary, directory]
    exact ih hfile
  | last ordinary free => rw [follow_ordinary _ _ _ _ _ ordinary, hfile]

/-- The place of a file that a path leads to. -/
def LeadsTo (fs : FileSystem) (path : String) (components : List String) : Prop :=
  ∃ place, fs.find .write path = .ok place ∧ place.components? = some components

/-- What a write does: the path leads to a place, and the place is all that is changed. -/
theorem write_ok {path : String} {content : ByteArray} {after : FileSystem}
    (h : fs.write path content = .ok after) :
    ∃ components, fs.LeadsTo path components ∧ after = fs.set components (.file content) := by
  rw [write] at h
  cases hf : fs.find .write path with
  | error fault => rw [hf] at h; cases h
  | ok place =>
    rw [hf] at h
    cases place with
    | directory => cases h
    | file components old => cases h; exact ⟨components, ⟨_, hf, rfl⟩, rfl⟩
    | vacant components => cases h; exact ⟨components, ⟨_, hf, rfl⟩, rfl⟩

/-- A path is followed from the root or from the working directory. -/
theorem find_eq_follow {path : String} {place : Place} (h : fs.find .write path = .ok place) :
    ∃ dir names, ∀ (fs' : FileSystem) (purpose : Purpose),
      fs'.find purpose path = fs'.follow purpose dir names := by
  rw [find] at h
  by_cases hnul : path.toList.contains '\x00'
  · rw [if_pos hnul] at h
    cases h
  by_cases hsize : maxPathSize < path.utf8ByteSize
  · rw [if_neg hnul, if_pos hsize] at h
    cases h
  rw [if_neg hnul, if_neg hsize] at h
  simp only [find, if_neg hnul, if_neg hsize]
  generalize FileSystem.names path = parts at h ⊢
  match parts with
  | [] => exact ⟨[], [], fun _ _ => rfl⟩
  | first :: rest =>
    by_cases hfirst : first = ""
    · subst hfirst
      match rest with
      | [] => cases h
      | second :: rest => exact ⟨["/"], second :: rest, fun _ _ => rfl⟩
    · refine ⟨[], first :: rest, fun fs' purpose => ?_⟩
      split <;> simp_all

/-- Once a file is in the place that a path leads to, the path leads to the file. -/
theorem LeadsTo.find_set {path : String} (h : fs.LeadsTo path components) (content : ByteArray)
    (purpose : Purpose) :
    (fs.set components (.file content)).find purpose path = .ok (.file components content) := by
  obtain ⟨place, hfind, hplace⟩ := h
  obtain ⟨dir, names, hfollow⟩ := find_eq_follow hfind
  rw [hfollow] at hfind ⊢
  exact ((leads_of_follow hfind hplace).set content).follow (by rw [lookup_set, if_pos rfl]) purpose

theorem LeadsTo.set {path : String} (h : fs.LeadsTo path components) (content : ByteArray) :
    (fs.set components (.file content)).LeadsTo path components :=
  ⟨_, h.find_set content .write, rfl⟩

theorem LeadsTo.read_set {path : String} (h : fs.LeadsTo path components) (content : ByteArray) :
    (fs.set components (.file content)).read path = .ok content := by
  rw [read, h.find_set content .read]

theorem LeadsTo.write_set {path : String} (h : fs.LeadsTo path components)
    (content more : ByteArray) :
    (fs.set components (.file content)).write path more =
      .ok ((fs.set components (.file content)).set components (.file more)) := by
  rw [write, h.find_set content .write]

theorem LeadsTo.exists_write {path : String} (h : fs.LeadsTo path components) (content : ByteArray) :
    ∃ after, fs.write path content = .ok after := by
  obtain ⟨place, hfind, hplace⟩ := h
  rw [write, hfind]
  cases place with
  | directory => cases hplace
  | file => exact ⟨_, rfl⟩
  | vacant => exact ⟨_, rfl⟩

theorem leadsTo_out : empty.LeadsTo "out" ["out"] := by
  have hnames : names "out" = ["out"] := rfl
  have hname : Ordinary "out" [] := ⟨by decide, by decide, by decide, by decide⟩
  refine ⟨.vacant ["out"], ?_, rfl⟩
  rw [find, if_neg (by decide), if_neg (by decide), hnames]
  exact follow_ordinary empty .write [] [] "out" hname

/-- The file of `path` is there and empty, and all other entries are what they were. -/
def Emptied (before after : FileSystem) (path : String) : Prop :=
  ∃ components, before.LeadsTo path components ∧ after.read path = .ok .empty ∧
    ∀ other, other ≠ components → after.entries.lookup other = before.entries.lookup other

/-- Writing nothing empties a file, and doing it twice is no different. -/
theorem emptied_of_write {path : String} {after : FileSystem} (h : fs.write path .empty = .ok after) :
    fs.Emptied ((after.write path .empty).toOption.getD after) path := by
  obtain ⟨components, hleads, rfl⟩ := write_ok h
  rw [hleads.write_set]
  refine ⟨components, hleads, (hleads.set .empty).read_set .empty, fun other hne => ?_⟩
  rw [Except.toOption, Option.getD_some, lookup_set, if_neg hne, lookup_set, if_neg hne]

end FileSystem

/-! ## Runs -/

/-- The program is refused by one of the stages. -/
def Error.IsRefusal (e : Error) : Prop :=
  e.IsDuplicate ∨ e.IsUndeclared ∨ e.IsMisplacedString

theorem Stage.Refuses.isRefusal {stage : Stage} {e : Error} (h : stage.Refuses e) : e.IsRefusal := by
  obtain h | ⟨-, h⟩ | ⟨-, -, h⟩ := h
  · exact .inl h
  · exact .inr (.inl h)
  · exact .inr (.inr h)

theorem Error.not_isRefusal_access {path : String} {fault : AccessFault} :
    ¬ (Error.access path fault).IsRefusal := by
  rintro (⟨_, _, h⟩ | ⟨_, h⟩ | ⟨_, h⟩ | ⟨_, h⟩) <;> cases h

theorem Error.not_isRefusal_parseTree {defect : Json.Defect} :
    ¬ (Error.parseTree defect).IsRefusal := by
  rintro (⟨_, _, h⟩ | ⟨_, h⟩ | ⟨_, h⟩ | ⟨_, h⟩) <;> cases h

/-- A compilation that ends with an error has been refused, with nothing written, or has failed to
write. -/
theorem ParseTree.Program.compileTo_error {program : Program} {stage : Stage} {sink : Sink}
    {path : String} {e : Error}
    (h : (program.compileTo stage sink path).1 = .error (.error e)) :
    (e.IsRefusal ∧ (program.compileTo stage sink path).2 = sink) ∨
      ∃ fault, e = .access path fault := by
  rw [compileTo] at h ⊢
  cases hl : program.listing stage with
  | error fault =>
    rw [hl] at h
    cases h
    have hproper := program.listing_refuses stage
    rw [hl] at hproper
    exact .inl ⟨Stage.Refuses.isRefusal hproper, rfl⟩
  | ok lines =>
    rw [hl] at h
    refine .inr ?_
    simp only at h
    split at h
    · cases h
      exact ⟨_, rfl⟩
    · split at h
      · cases h
        exact ⟨_, rfl⟩
      · cases h

namespace Session

open ParseTree

variable {s : Session} {o : Options} {path : String} {e : Error}

/-- Content of the input. -/
def content (s : Session) (o : Options) : Except AccessFault ByteArray :=
  match o.inputFile? with
  | none => .ok s.input
  | some path => s.files.read path

/-- What a run does after its input has been read. -/
theorem run_eq (s : Session) (o : Options) :
    o.run (surroundings s.input) (s.files, .empty) =
      match o.text (s.content o) with
      | .error e => (([], .error (.error e)), s.files, .empty)
      | .ok text =>
        match Program.decode text with
        | .error defect =>
          (([.readInput text.utf8ByteSize], .error (.error (.parseTree defect))), s.files, .empty)
        | .ok program =>
          o.compile (surroundings s.input) program
            [.readInput text.utf8ByteSize, .compiling program.ident] (s.files, .empty) := by
  have hread : (surroundings s.input).read o.inputFile? (s.files, .empty) =
      (s.content o, s.files, .empty) := by
    rw [content]
    cases o.inputFile? <;> rfl
  simp only [Options.run, bind, StateT.bind, hread]
  cases o.text (s.content o) with
  | error e => rfl
  | ok text => cases hd : Program.decode text <;> simp only [hd] <;> rfl

/-- What compiling into a file does: the file is emptied, then what the sink has received is written
to it. -/
theorem compile_eq (ho : o.output = some path) (program : Program) (log : List LogRecord)
    (input output : ByteArray) (files : FileSystem) :
    o.compile (surroundings input) program log (files, output) =
      match files.write path .empty with
      | .error fault => ((log, .error (.error (.access path fault))), files, output)
      | .ok emptied =>
        let (result, sink) := program.compileTo o.wanted .unlimited path
        let log := log ++ program.compileLog o.wanted
        match result, emptied.write path sink.received with
        | .ok (), .error fault => ((log, .error (.error (.access path fault))), emptied, output)
        | result, written => ((log, result), written.toOption.getD emptied, output) := by
  have hclear : (surroundings input).clear o.output (files, output) =
      writeFile path .empty (files, output) := by rw [ho]; rfl
  have hname : o.outputName = path := by rw [Options.outputName, ho]; rfl
  have hwrite : ∀ bytes, (surroundings input).write o.output bytes = writeFile path bytes := by
    intro bytes
    rw [ho]
    rfl
  simp only [Options.compile, bind, StateT.bind, hclear, writeFile, hname, hwrite]
  cases files.write path .empty with
  | error fault => rfl
  | ok emptied =>
    obtain ⟨result, sink⟩ := program.compileTo o.wanted .unlimited path
    cases hwritten : emptied.write path sink.received with
    | error fault =>
      simp only [StateT.bind, writeFile, hwritten]
      cases result <;> rfl
    | ok files =>
      simp only [StateT.bind, writeFile, hwritten]
      cases result <;> rfl

/-- Compiling into a file: a program that is refused leaves the file empty. -/
theorem compile_error {program : Program} {log : List LogRecord} {input output : ByteArray}
    {files : FileSystem} (ho : o.output = some path)
    (h : (o.compile (surroundings input) program log (files, output)).1.2 = .error (.error e)) :
    (e.IsRefusal ∧
      files.Emptied (o.compile (surroundings input) program log (files, output)).2.1 path) ∨
      ∃ fault, e = .access path fault := by
  rw [compile_eq ho] at h ⊢
  cases hw : files.write path .empty with
  | error fault =>
    rw [hw] at h
    cases h
    exact .inr ⟨_, rfl⟩
  | ok emptied =>
    rw [hw] at h
    simp only at h ⊢
    cases hresult : (program.compileTo o.wanted .unlimited path).1 with
    | ok done =>
      rw [hresult] at h
      cases hwritten : emptied.write path (program.compileTo o.wanted .unlimited path).2.received with
      | error fault =>
        rw [hwritten] at h
        cases h
        exact .inr ⟨_, rfl⟩
      | ok files =>
        rw [hwritten] at h
        cases h
    | error fault =>
      rw [hresult] at h
      cases h
      obtain ⟨hrefused, hsink⟩ | haccess := Program.compileTo_error hresult
      -- The sink of a refused program has received nothing: the file is written empty once more.
      · rw [hsink]
        exact .inl ⟨hrefused, FileSystem.emptied_of_write hw⟩
      · exact .inr haccess

theorem text_error {input : Except AccessFault ByteArray} (h : o.text input = .error e) :
    ∃ path fault, e = .access path fault := by
  rw [Options.text] at h
  cases hi : input >>= textOf with
  | error fault => rw [hi] at h; cases h; exact ⟨_, _, rfl⟩
  | ok text => rw [hi] at h; cases h

theorem text_stdin {text : String} (ho : o.inputFile? = none) (h : s.input = text.toByteArray) :
    o.text (s.content o) = .ok text := by
  have htext : textOf text.toByteArray = .ok text := by
    rw [textOf, String.fromUTF8?, dif_pos text.isValidUTF8]
    rfl
  rw [Options.text, content, ho, h]
  show (textOf text.toByteArray).mapError _ = _
  rw [htext]
  rfl

/-- How a run can end with an error. -/
theorem run_error (ho : o.output = some path) (h : (s.run o).result = .error (.error e)) :
    ((∃ defect, e = .parseTree defect) ∧ (s.run o).files = s.files) ∨
    (e.IsRefusal ∧ s.files.Emptied (s.run o).files path) ∨ ∃ path fault, e = .access path fault := by
  rw [run, run_eq] at h ⊢
  cases htext : o.text (s.content o) with
  | error e' =>
    rw [htext] at h
    cases h
    obtain ⟨path, fault, he⟩ := text_error htext
    exact .inr (.inr ⟨path, fault, he⟩)
  | ok text =>
    rw [htext] at h
    simp only at h ⊢
    cases hd : Program.decode text with
    | error defect =>
      rw [hd] at h
      cases h
      exact .inl ⟨⟨defect, rfl⟩, rfl⟩
    | ok program =>
      rw [hd] at h
      obtain hrefused | ⟨fault, he⟩ := compile_error ho h
      · exact .inr (.inl hrefused)
      · exact .inr (.inr ⟨path, fault, he⟩)

/-- **What a failed run leaves of the output file.** If the input is no parse tree, all files are what
they were. If the program is refused, the output file is there and empty, whatever it was, and all
else is what it was; so it has kept its content only if it was an empty file. -/
theorem run_failed (ho : o.output = some path) :
    (∀ defect, (s.run o).result = .error (.error (.parseTree defect)) →
      (s.run o).files = s.files) ∧
    ∀ e : Error, (s.run o).result = .error (.error e) → e.IsRefusal →
      s.files.Emptied (s.run o).files path ∧
      ((s.run o).files.read path = s.files.read path ↔ s.files.read path = .ok .empty) := by
  refine ⟨fun defect h => ?_, fun e h hrefused => ?_⟩
  · obtain ⟨-, hfiles⟩ | ⟨hrefused, -⟩ | ⟨_, _, he⟩ := run_error ho h
    · exact hfiles
    · exact absurd hrefused Error.not_isRefusal_parseTree
    · cases he
  · obtain ⟨⟨_, rfl⟩, -⟩ | ⟨-, hemptied⟩ | ⟨_, _, rfl⟩ := run_error ho h
    · exact absurd hrefused Error.not_isRefusal_parseTree
    · refine ⟨hemptied, ?_⟩
      obtain ⟨_, -, hread, -⟩ := hemptied
      rw [hread]
      exact eq_comm
    · exact absurd hrefused Error.not_isRefusal_access

/-- A run whose program is refused. -/
theorem run_of_refused {text : String} {program : Program} {fault : Fault} {components : List String}
    (ho : o.output = some path) (htext : o.text (s.content o) = .ok text)
    (hdecode : Program.decode text = .ok program) (hlisting : program.listing o.wanted = .error fault)
    (hleads : s.files.LeadsTo path components) : (s.run o).result = .error fault := by
  obtain ⟨after, hwrite⟩ := hleads.exists_write .empty
  simp only [run, run_eq, htext, hdecode, compile_eq ho, hwrite, Program.compileTo, hlisting]

/-- A string that is declared twice and no output file, and a text that is no parse tree and an output
file with content. -/
theorem run_failed_new_file :
    let text := "\x7b\"ident\":\"p\",\"decls\":[\x7b\"string\":\x7b\"ident\":\"s\",\"literal\":\"a\"\x7d\x7d," ++
      "\x7b\"string\":\x7b\"ident\":\"s\",\"literal\":\"b\"\x7d\x7d]\x7d"
    let fs := FileSystem.empty.set ["out"] (.file "old".toByteArray)
    let repeated : Session := ⟨.empty, text.toByteArray⟩
    let noTree : Session := ⟨fs, "[".toByteArray⟩
    ∃ o, Options.parse ["-o", "out"] = .ok o ∧
      (repeated.run o).result = .error (.error (.duplicateDeclaration .global "s")) ∧
      FileSystem.empty.Emptied (repeated.run o).files "out" ∧
      (noTree.run o).result = .error (.error (.parseTree .truncated)) ∧
      (noTree.run o).files = fs := by
  intro text fs repeated noTree
  let o : Options := ⟨none, none, some "out"⟩
  have hdecode : Program.decode text = .ok ⟨"p", [.string "s" "a", .string "s" "b"], []⟩ := by
    unfold text
    rfl
  have hresult : (repeated.run o).result = .error (.error (.duplicateDeclaration .global "s")) :=
    run_of_refused rfl (text_stdin rfl rfl) hdecode rfl FileSystem.leadsTo_out
  have hnoTree : (noTree.run o).result = .error (.error (.parseTree .truncated)) := by
    have htext : o.text (noTree.content o) = .ok "[" := text_stdin rfl rfl
    have hdefect : Program.decode "[" = .error .truncated := by rfl
    simp only [run, run_eq, htext, hdefect]
  refine ⟨o, rfl, hresult, ?_, hnoTree, ?_⟩
  · exact ((run_failed rfl).2 _ hresult (.inl ⟨_, _, rfl⟩)).1
  · exact (run_failed rfl).1 _ hnoTree

/-- A name that is declared twice, and an output file that has content. -/
theorem refused_program_empties_output :
    let text :=
      "\x7b\"ident\":\"p\",\"decls\":[\x7b\"var\":\x7b\"ty\":\"INT\",\"idents\":[\"x\",\"x\"]\x7d\x7d]\x7d"
    let s : Session := ⟨FileSystem.empty.set ["out"] (.file "old".toByteArray), text.toByteArray⟩
    ∃ o, Options.parse ["-o", "out"] = .ok o ∧
      (s.run o).result = .error (.error (.duplicateDeclaration .global "x")) ∧
      s.files.read "out" = .ok "old".toByteArray ∧ (s.run o).files.read "out" = .ok .empty := by
  intro text s
  let o : Options := ⟨none, none, some "out"⟩
  have hleads : FileSystem.empty.LeadsTo "out" ["out"] := FileSystem.leadsTo_out
  have hdecode : Program.decode text = .ok ⟨"p", [.var .int ["x", "x"]], []⟩ := by
    unfold text
    rfl
  have hresult : (s.run o).result = .error (.error (.duplicateDeclaration .global "x")) :=
    run_of_refused rfl (text_stdin rfl rfl) hdecode rfl (hleads.set _)
  refine ⟨o, rfl, hresult, hleads.read_set _, ?_⟩
  obtain ⟨⟨_, he⟩, -⟩ | ⟨-, _, -, hread, -⟩ | ⟨_, _, he⟩ := run_error rfl hresult
  · cases he
  · exact hread
  · cases he

end Session

end TinyGen
