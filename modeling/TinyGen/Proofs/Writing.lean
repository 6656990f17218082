import TinyGen.Compile

/-!
# Writing the text of a stage

`Program.HasText` puts the text of a stage together from what the stages give, and `Program.FailsAt` says
which stage has failed. `Program.compileTo_delivers` says what a sink with room for `n` bytes has
received afterwards: the first `n` bytes of the text, or nothing at all when a stage has failed.

A sink does not see how a text is cut into pieces (`Sink.writePieces_eq_write`), so it does not matter
that the text of a stage is written line by line.
-/

namespace TinyGen

/-! ## Pieces -/

namespace Sink

/-- The bytes of pieces, one after another. -/
def joined (pieces : List ByteArray) : ByteArray :=
  pieces.foldr (· ++ ·) .empty

/-- Writes pieces one after another, up to the first failure. -/
def writePieces (sink : Sink) : List ByteArray → Except AccessFault Unit × Sink
  | [] => (.ok (), sink)
  | piece :: rest =>
    match sink.write piece with
    | (.error fault, sink) => (.error fault, sink)
    | (.ok (), sink) => sink.writePieces rest

/-- Writes pieces and flushes. A failure is reported for `path`. -/
def deliver (sink : Sink) (pieces : List ByteArray) (path : String) : Except Fault Unit × Sink :=
  match sink.writePieces pieces with
  | (.error fault, sink) => (.error (.error (.access path fault)), sink)
  | (.ok (), sink) =>
    match sink.flush with
    | (.error fault, sink) => (.error (.error (.access path fault)), sink)
    | (.ok (), sink) => (.ok (), sink)

private theorem extract_zero_of_size_le {bytes : ByteArray} {n : Nat} (h : bytes.size ≤ n) :
    bytes.extract 0 n = bytes := by
  rw [← Nat.max_eq_left h]
  exact ByteArray.extract_zero_max_size

variable {sink : Sink} {n : Nat} {bytes : ByteArray}

theorem write_of_none (h : sink.room = none) (bytes : ByteArray) :
    sink.write bytes = (.ok (), { sink with received := sink.received ++ bytes }) := by
  rw [write, h]

theorem write_of_le (h : sink.room = some n) (hle : bytes.size ≤ n) :
    sink.write bytes = (.ok (),
      { sink with room := some (n - bytes.size), received := sink.received ++ bytes }) := by
  simp only [write, h, if_pos hle]

theorem write_of_lt (h : sink.room = some n) (hlt : n < bytes.size) :
    sink.write bytes = (.error .sinkFull,
      { sink with room := some 0, received := sink.received ++ bytes.extract 0 n }) := by
  simp only [write, h, if_neg (Nat.not_le.mpr hlt)]

theorem write_empty (sink : Sink) : sink.write .empty = (.ok (), sink) := by
  obtain ⟨_ | n, refuses, received, flushes⟩ := sink
  · rw [write_of_none rfl, ByteArray.append_empty]
  · rw [write_of_le rfl (by simp)]
    simp

/-- Two pieces, the second only after the first has been taken, are taken as one. -/
theorem write_append (sink : Sink) (a b : ByteArray) :
    (match sink.write a with
      | (.error fault, sink) => (.error fault, sink)
      | (.ok (), sink) => sink.write b) = sink.write (a ++ b) := by
  obtain ⟨room, refuses, received, flushes⟩ := sink
  cases room with
  | none =>
    rw [write_of_none rfl, write_of_none rfl]
    simp only
    rw [write_of_none rfl, ByteArray.append_assoc]
  | some n =>
    by_cases ha : a.size ≤ n
    · rw [write_of_le rfl ha]
      simp only
      by_cases hb : b.size ≤ n - a.size
      · have hab : (a ++ b).size ≤ n := by
          rw [ByteArray.size_append]
          omega
        rw [write_of_le rfl hb, write_of_le rfl hab, ByteArray.append_assoc, ByteArray.size_append,
          Nat.sub_sub]
      · -- The second piece is the one that is cut.
        have hab : n < (a ++ b).size := by
          rw [ByteArray.size_append]
          omega
        have hcut : (a ++ b).extract 0 n = a ++ b.extract 0 (n - a.size) := by
          rw [ByteArray.extract_append, Nat.zero_sub, extract_zero_of_size_le ha]
        rw [write_of_lt rfl (Nat.not_le.mp hb), write_of_lt rfl hab, hcut, ByteArray.append_assoc]
    · have hab : n < (a ++ b).size := by
        rw [ByteArray.size_append]
        omega
      have hcut : (a ++ b).extract 0 n = a.extract 0 n := by
        rw [ByteArray.extract_append, Nat.zero_sub, Nat.sub_eq_zero_of_le (by omega),
          ByteArray.extract_same, ByteArray.append_empty]
      rw [write_of_lt rfl (Nat.not_le.mp ha), write_of_lt rfl hab, hcut]

/-- **Pieces are taken as the whole is.** -/
theorem writePieces_eq_write (sink : Sink) (pieces : List ByteArray) :
    sink.writePieces pieces = sink.write (joined pieces) := by
  induction pieces generalizing sink with
  | nil => exact (write_empty sink).symm
  | cons piece rest ih =>
    rw [writePieces, joined, List.foldr_cons, ← write_append]
    simp only [ih]
    rfl

/-- The end of a delivery of `out` to a sink that had room for `n` bytes: it has received as much of
`out` as there was room for, and has been flushed if that is all. All is well if nothing was left over
and the flush has not been refused; else there is a fault for `path`. -/
structure Delivered (n : Nat) (refuses : Bool) (path : String) (out : ByteArray)
    (ended : Except Fault Unit × Sink) : Prop where
  received : ended.2.received = out.extract 0 (min n out.size)
  flushes : ended.2.flushes = if out.size ≤ n then 1 else 0
  ok_iff : ended.1 = .ok () ↔ out.size ≤ n ∧ refuses = false
  fault : ended.1 = .ok () ∨ ∃ cause, ended.1 = .error (.error (.access path cause))

theorem deliver_delivered (n : Nat) (refuses : Bool) (pieces : List ByteArray) (path : String) :
    Delivered n refuses path (joined pieces)
      (deliver ⟨some n, refuses, .empty, 0⟩ pieces path) := by
  rw [deliver, writePieces_eq_write]
  generalize joined pieces = out
  by_cases h : out.size ≤ n
  · rw [write_of_le rfl h, ByteArray.empty_append]
    have hall : out = out.extract 0 (min n out.size) := by
      rw [Nat.min_eq_right h, ByteArray.extract_zero_size]
    cases refuses with
    | false => exact ⟨hall, (if_pos h).symm, ⟨fun _ => ⟨h, rfl⟩, fun _ => rfl⟩, .inl rfl⟩
    | true => exact ⟨hall, (if_pos h).symm, ⟨nofun, nofun⟩, .inr ⟨_, rfl⟩⟩
  · have hlt : n < out.size := Nat.not_le.mp h
    have hcut : out.extract 0 n = out.extract 0 (min n out.size) := by
      rw [Nat.min_eq_left (Nat.le_of_lt hlt)]
    rw [write_of_lt rfl hlt, ByteArray.empty_append]
    exact ⟨hcut, (if_neg h).symm, ⟨nofun, fun hle => absurd hle.1 h⟩, .inr ⟨_, rfl⟩⟩

end Sink

/-! ## Texts of the stages -/

namespace Text

private theorem unlines_append (a b : List String) : unlines (a ++ b) = unlines a ++ unlines b := by
  simp [unlines, String.join_append]

private theorem unlines_cons (line : String) (rest : List String) :
    unlines (line :: rest) = line ++ "\n" ++ unlines rest := by
  simp [unlines, String.join_cons]

/-- The bytes of the lines, each with its line break. -/
def pieces (lines : List String) : List ByteArray :=
  lines.map fun line => (line ++ "\n").toByteArray

theorem joined_pieces (lines : List String) :
    Sink.joined (pieces lines) = (unlines lines).toByteArray := by
  induction lines with
  | nil => rfl
  | cons line rest ih =>
    rw [unlines_cons, String.toByteArray_append, ← ih]
    rfl

end Text

theorem Sink.writeLines_eq (sink : Sink) (lines : List String) :
    sink.writeLines lines = sink.writePieces (Text.pieces lines) := by
  induction lines generalizing sink with
  | nil => rfl
  | cons line rest ih =>
    rw [writeLines, Text.pieces, List.map_cons, writePieces]
    simp only [ih]
    rfl

/-- How many of the four results a stage needs: scope table, statement trees, three-address code and
target program. -/
def Stage.needs : Stage → Nat
  | .symbols => 1
  | .tree => 2
  | .ir => 3
  | .tiny => 4
  | .all => 4

namespace ParseTree.Program

open Text (unlines)

/-- The stage fails on what the stages before it have given. -/
inductive FailsAt (program : Program) : Stage → Fault → Prop where
  | symbols {fault : Fault} (h : program.scopeTable = .error fault) : FailsAt program .symbols fault
  | tree {table : ScopeTable} {fault : Fault} (htable : program.scopeTable = .ok table)
      (h : program.statements table = .error fault) : FailsAt program .tree fault
  | ir {table : ScopeTable} {statements : List Statement} {fault : Fault}
      (htable : program.scopeTable = .ok table)
      (hstatements : program.statements table = .ok statements)
      (h : ThreeAddress.Code.ofStatements statements = .error fault) : FailsAt program .ir fault
  | tiny {table : ScopeTable} {statements : List Statement} {code : ThreeAddress.Code} {fault : Fault}
      (htable : program.scopeTable = .ok table)
      (hstatements : program.statements table = .ok statements)
      (hcode : ThreeAddress.Code.ofStatements statements = .ok code)
      (h : target table code = .error fault) : FailsAt program .tiny fault

/-- The text of a stage. That of all is made of the texts of three others. -/
inductive HasText (program : Program) : Stage → String → Prop where
  | symbols {table : ScopeTable} (htable : program.scopeTable = .ok table) :
      HasText program .symbols (unlines table.reportLines)
  | tree {table : ScopeTable} {statements : List Statement} (htable : program.scopeTable = .ok table)
      (hstatements : program.statements table = .ok statements) :
      HasText program .tree (unlines (statements.map Statement.text))
  | ir {table : ScopeTable} {statements : List Statement} {code : ThreeAddress.Code}
      (htable : program.scopeTable = .ok table)
      (hstatements : program.statements table = .ok statements)
      (hcode : ThreeAddress.Code.ofStatements statements = .ok code) :
      HasText program .ir (unlines code.lines)
  | tiny {table : ScopeTable} {statements : List Statement} {code : ThreeAddress.Code}
      {result : Target.Program} (htable : program.scopeTable = .ok table)
      (hstatements : program.statements table = .ok statements)
      (hcode : ThreeAddress.Code.ofStatements statements = .ok code)
      (htarget : target table code = .ok result) : HasText program .tiny (unlines result.lines)
  | all {symbols ir tiny : String} (hsymbols : HasText program .symbols symbols)
      (hir : HasText program .ir ir) (htiny : HasText program .tiny tiny) :
      HasText program .all (symbols ++ ir ++ ";tiny code\n" ++ tiny)

/-- A stage fails when one that it needs fails. -/
theorem listing_of_failsAt {program : Program} {earlier stage : Stage} {fault : Fault}
    (h : program.FailsAt earlier fault) (hle : earlier.needs ≤ stage.needs) :
    program.listing stage = .error fault := by
  cases h with
  | symbols h =>
    simp only [listing, outcome, h]
    rfl
  | tree htable h =>
    simp only [listing, outcome, htable, h, bind, Except.bind]
    cases stage <;> first | rfl | exact absurd hle (by decide)
  | ir htable hstatements h =>
    simp only [listing, outcome, htable, hstatements, h, bind, Except.bind]
    cases stage <;> first | rfl | exact absurd hle (by decide)
  | tiny htable hstatements hcode h =>
    simp only [listing, outcome, htable, hstatements, hcode, h, bind, Except.bind]
    cases stage <;> first | rfl | exact absurd hle (by decide)

/-- The lines of a stage make up its text. -/
theorem listing_of_hasText {program : Program} {stage : Stage} {text : String}
    (h : program.HasText stage text) :
    ∃ lines, program.listing stage = .ok lines ∧ unlines lines = text := by
  cases h with
  | symbols htable =>
    refine ⟨_, ?_, rfl⟩
    simp only [listing, outcome, htable]
    rfl
  | tree htable hstatements =>
    refine ⟨_, ?_, rfl⟩
    simp only [listing, outcome, htable, hstatements, bind, Except.bind]
    rfl
  | ir htable hstatements hcode =>
    refine ⟨_, ?_, rfl⟩
    simp only [listing, outcome, htable, hstatements, hcode, bind, Except.bind]
    rfl
  | tiny htable hstatements hcode htarget =>
    refine ⟨_, ?_, rfl⟩
    simp only [listing, outcome, htable, hstatements, hcode, htarget, bind, Except.bind]
    rfl
  | all hsymbols hir htiny =>
    -- The three texts are of one run: each stage has one result.
    cases hsymbols with | @symbols table htable =>
    cases hir with | @ir _ statements code htable' hstatements hcode =>
    cases htiny with | @tiny _ _ _ result htable'' hstatements' hcode' htarget =>
    obtain rfl := Except.ok.inj (htable.symm.trans htable')
    obtain rfl := Except.ok.inj (htable.symm.trans htable'')
    obtain rfl := Except.ok.inj (hstatements.symm.trans hstatements')
    obtain rfl := Except.ok.inj (hcode.symm.trans hcode')
    refine ⟨(Outcome.all table code result).lines, ?_, ?_⟩
    · simp only [listing, outcome, htable, hstatements, hcode, htarget, bind, Except.bind]
      rfl
    · rw [Outcome.lines, Text.unlines_append, Text.unlines_append, Text.unlines_cons,
        ← String.append_assoc]
      rfl

/-- A stage has a text, unless one that it needs fails. -/
theorem failsAt_or_hasText (program : Program) (stage : Stage) :
    (∃ earlier fault, program.FailsAt earlier fault ∧ earlier.needs ≤ stage.needs) ∨
      ∃ text, program.HasText stage text := by
  -- Stage by stage, up to the one that fails or is wanted.
  cases htable : program.scopeTable with
  | error fault => exact .inl ⟨_, fault, .symbols htable, by cases stage <;> decide⟩
  | ok table =>
    by_cases hsymbols : stage = .symbols
    · subst hsymbols
      exact .inr ⟨_, .symbols htable⟩
    cases hstatements : program.statements table with
    | error fault =>
      refine .inl ⟨_, fault, .tree htable hstatements, ?_⟩
      cases stage <;> first | decide | exact absurd rfl hsymbols
    | ok statements =>
      by_cases htree : stage = .tree
      · subst htree
        exact .inr ⟨_, .tree htable hstatements⟩
      cases hcode : ThreeAddress.Code.ofStatements statements with
      | error fault =>
        refine .inl ⟨_, fault, .ir htable hstatements hcode, ?_⟩
        cases stage <;> first | decide | contradiction
      | ok code =>
        by_cases hir : stage = .ir
        · subst hir
          exact .inr ⟨_, .ir htable hstatements hcode⟩
        cases htarget : target table code with
        | error fault =>
          refine .inl ⟨_, fault, .tiny htable hstatements hcode htarget, ?_⟩
          cases stage <;> first | decide | contradiction
        | ok result =>
          have htiny := HasText.tiny htable hstatements hcode htarget
          cases stage with
          | tiny => exact .inr ⟨_, htiny⟩
          | all => exact .inr ⟨_, .all (.symbols htable) (.ir htable hstatements hcode) htiny⟩
          | _ => contradiction

/-- What is written, and what comes back, when the text of the stage is cut into any pieces. -/
theorem compileTo_eq_deliver {program : Program} {stage : Stage} {text : String}
    (h : program.HasText stage text) (sink : Sink) (path : String) {pieces : List ByteArray}
    (hpieces : Sink.joined pieces = text.toByteArray) :
    program.compileTo stage sink path = sink.deliver pieces path := by
  obtain ⟨lines, hlines, rfl⟩ := listing_of_hasText h
  rw [← Text.joined_pieces] at hpieces
  have hsame : sink.writeLines lines = sink.writePieces pieces := by
    rw [Sink.writeLines_eq, Sink.writePieces_eq_write, Sink.writePieces_eq_write, hpieces]
  rewrite [compileTo, hlines, Sink.deliver, ← hsame]
  rfl

/-- **A text is delivered as a whole or up to the room there is.** Either one of the stages up to the
wanted one fails, or that one has a text. In the first case the fault comes back and the sink is as it
was, whatever it would have done; so the fault of a stage is that of all later ones. In the second case
the text is delivered, and it does not matter in which pieces it is written. -/
theorem compileTo_delivers (program : Program) (stage : Stage) (path : String) :
    ((∃ earlier fault, program.FailsAt earlier fault ∧ earlier.needs ≤ stage.needs) ∨
      ∃ text, program.HasText stage text) ∧
    (∀ earlier fault, program.FailsAt earlier fault → earlier.needs ≤ stage.needs →
      ∀ sink, program.compileTo stage sink path = (.error fault, sink)) ∧
    ∀ text, program.HasText stage text → ∀ n refuses,
      let sink : Sink := ⟨some n, refuses, .empty, 0⟩
      Sink.Delivered n refuses path text.toByteArray (program.compileTo stage sink path) ∧
      ∀ pieces, Sink.joined pieces = text.toByteArray →
        sink.deliver pieces path = program.compileTo stage sink path := by
  refine ⟨program.failsAt_or_hasText stage, fun earlier fault h hle sink => ?_,
    fun text h n refuses => ?_⟩
  · rw [compileTo, listing_of_failsAt h hle]
  · intro sink
    have hone : Sink.joined [text.toByteArray] = text.toByteArray := ByteArray.append_empty
    have hdelivered := Sink.deliver_delivered n refuses [text.toByteArray] path
    rw [hone, ← compileTo_eq_deliver h sink path hone] at hdelivered
    exact ⟨hdelivered, fun pieces hp => (compileTo_eq_deliver h sink path hp).symm⟩

/-- All texts of a program that writes a string with a character of two bytes, and what a sink receives
whose room ends inside that character. A program that reads into the string fails from its three-address
code on. -/
theorem compileTo_cut_in_character :
    let program : Program := ⟨"p", [.string "s" "\"é\""], [⟨"f", [], [], [.write ["s"]]⟩]⟩
    let reading : Program := ⟨"p", [.string "s" "\"é\""], [⟨"f", [], [], [.read ["s"]]⟩]⟩
    let symbols := "Symbol table GLOBAL\nname s type STRING value \"é\"\n\n\nSymbol Table f\n\n"
    let ir := ";IR code\n;LABEL main\n;LINK\n;WRITES s\n;RET\n"
    let tiny := "str s \"é\"\nsys writes s\nsys halt\n"
    let cut := program.compileTo .tiny ⟨some 8, false, .empty, 0⟩ "out"
    let whole := program.compileTo .all ⟨some 154, false, .empty, 0⟩ "out"
    program.HasText .symbols symbols ∧
    program.HasText .tree "[STRING s \"é\"]\n[WRITE s]\n" ∧
    program.HasText .ir ir ∧ program.HasText .tiny tiny ∧
    program.HasText .all (symbols ++ ir ++ ";tiny code\n" ++ tiny) ∧
    cut.2.received = ⟨#[115, 116, 114, 32, 115, 32, 34, 195]⟩ ∧ cut.2.flushes = 0 ∧ cut.1 ≠ .ok () ∧
    whole.2.received = (symbols ++ ir ++ ";tiny code\n" ++ tiny).toByteArray ∧
    whole.2.flushes = 1 ∧ whole.1 = .ok () ∧
    reading.FailsAt .ir (.error (.unsupportedRead "s")) ∧
    (reading.compileTo .tree ⟨some 100, false, .empty, 0⟩ "out").1 = .ok () ∧
    ∀ sink, reading.compileTo .all sink "out" = (.error (.error (.unsupportedRead "s")), sink) := by
  intro program reading symbols ir tiny cut whole
  let table : ScopeTable := ⟨[(.global, [⟨"s", .str "\"é\""⟩]), (.procedure "f", [])]⟩
  let writes : List Statement := [.stringDecl "s" "\"é\"", .write [⟨"s", .string⟩]]
  let reads : List Statement := [.stringDecl "s" "\"é\"", .read [⟨"s", .string⟩]]
  have htable : program.scopeTable = .ok table := rfl
  have hwrites : program.statements table = .ok writes := rfl
  have hreads : reading.statements table = .ok reads := rfl
  have hcode : ThreeAddress.Code.ofStatements writes =
      .ok ⟨[.label "main", .link, .write .string "s", .ret], 0⟩ := rfl
  have hsymbols : program.HasText .symbols symbols := .symbols htable
  have hir : program.HasText .ir ir := .ir htable hwrites hcode
  have htiny : program.HasText .tiny tiny := .tiny htable hwrites hcode rfl
  have hall : program.HasText .all (symbols ++ ir ++ ";tiny code\n" ++ tiny) := .all hsymbols hir htiny
  have htrees : reading.HasText .tree "[STRING s \"é\"]\n[READ s]\n" := .tree rfl hreads
  have hfails : reading.FailsAt .ir (.error (.unsupportedRead "s")) := .ir rfl hreads rfl
  obtain ⟨⟨hcut, hcutFlushes, hcutOk, -⟩, -⟩ :=
    (program.compileTo_delivers .tiny "out").2.2 tiny htiny 8 false
  obtain ⟨⟨hwhole, hwholeFlushes, hwholeOk, -⟩, -⟩ :=
    (program.compileTo_delivers .all "out").2.2 _ hall 154 false
  obtain ⟨⟨-, -, htreesOk, -⟩, -⟩ := (reading.compileTo_delivers .tree "out").2.2 _ htrees 100 false
  have hsize : tiny.toByteArray.size = 33 := by decide
  have hsizeAll : (symbols ++ ir ++ ";tiny code\n" ++ tiny).toByteArray.size = 154 := by decide +kernel
  have hprefix : tiny.toByteArray.extract 0 (min 8 33) =
      ⟨#[115, 116, 114, 32, 115, 32, 34, 195]⟩ := by decide
  rw [hsize] at hcut hcutFlushes hcutOk
  rw [Sink.extract_zero_of_size_le (by rw [hsizeAll]; decide)] at hwhole
  rw [hsizeAll] at hwholeFlushes hwholeOk
  refine ⟨hsymbols, .tree htable hwrites, hir, htiny, hall, hcut.trans hprefix,
    hcutFlushes.trans (if_neg (by decide)), fun h => absurd (hcutOk.mp h).1 (by decide), hwhole,
    hwholeFlushes.trans (if_pos (by decide)), hwholeOk.mpr (by decide), hfails,
    htreesOk.mpr (by decide), fun sink => ?_⟩
  exact (reading.compileTo_delivers .all "out").2.1 .ir _ hfails (by decide) sink

end ParseTree.Program

end TinyGen
