import Mathlib.Logic.Function.Basic
import ScriptLowering.CommandLine.Run
import ScriptLowering.Proofs.Script

/-!
# A run writes to one place or to none

A run reads files, and at its end it may write one.  Nothing is said here about how files are kept, only that reading
gives what is there, that a failed write changes nothing, and that any other write changes one file.

* `CommandLine.FileSystem` — files with these laws;
* `CommandLine.Request.run_eq` — a run of a request, in terms of what its files hold;
* `CommandLine.Request.options?`, `CommandLine.Request.program?` — what a request resolves to;
* `CommandLine.Obstacle` — what keeps a run from writing its script, with the failure that it reports;
* `CommandLine.Refused`, `CommandLine.Delivered` — the two ways in which a run ends;
* `CommandLine.run_writes_once` — a run that meets an obstacle is refused, and any other run delivers its script.
-/

namespace ScriptLowering.CommandLine

/-! ### File systems -/

/-- Files that are kept in a state. -/
structure FileSystem (σ : Type) where
  files : Files (StateM σ)
  /-- The text of the file at a path. -/
  content : σ → String → Option String
  /-- Whether two paths lead to one file. -/
  SameFile : σ → String → String → Prop
  sameFile_refl : ∀ state path, SameFile state path path
  /-- Reading gives the text of a file and changes nothing. -/
  read_eq : ∀ state path, (files.read? path).run state = (content state path, state)
  /-- A failed write changes nothing. -/
  unwritten : ∀ state path text after, (files.write path text).run state = (false, after) → after = state
  /-- A write puts the text into the file at the path, and leaves all other files as they are. -/
  written : ∀ state path text after, (files.write path text).run state = (true, after) → ∀ other,
    (SameFile state path other → content after other = some text) ∧
      (¬ SameFile state path other → content after other = content state other)

section

variable {σ : Type} (system : FileSystem σ)

/-- The texts of the files at some paths, each with its path. -/
def found (read : String → Option String) (paths : List String) : List (String × String) :=
  paths.flatMap fun path => ((read path).map (path, ·)).toList

theorem FileSystem.readAll_eq (state : σ) (paths : List String) :
    (system.files.readAll paths).run state = (found (system.content state) paths, state) := by
  induction paths with
  | nil => rfl
  | cons path rest ih =>
    rw [Files.readAll, StateT.run_bind, system.read_eq]
    show ((system.files.readAll rest >>= _).run state) = _
    rw [StateT.run_bind, ih]
    rfl

/-- Among the texts that were read, a path leads to the text that was read there. -/
theorem lookup_found (read : String → Option String) (paths : List String) (path : String) :
    (found read paths).lookup path = if path ∈ paths then read path else none := by
  induction paths with
  | nil => rfl
  | cons first rest ih =>
    rw [found, List.flatMap_cons, ← found, List.lookup_append, ih]
    by_cases hfirst : path = first
    · subst hfirst
      rw [if_pos List.mem_cons_self]
      cases read path with
      | none => simp
      | some text => simp
    · have hother : ((read first).map (first, ·)).toList.lookup path = none := by
        cases read first with
        | none => rfl
        | some text => simp [List.lookup_cons, beq_false_of_ne hfirst]
      rw [hother, Option.none_or]
      simp only [List.mem_cons, hfirst, false_or]

end

/-! ### Runs of a request -/

section

variable {σ : Type} (system : FileSystem σ) (request : Request) (readers : Readers) (environment : Environment)

/-- A request looks at no other files than its sources. -/
theorem Request.lower_congr {read read' : String → Option String}
    (h : ∀ path ∈ request.sources environment, read path = read' path) :
    request.lower readers environment read = request.lower readers environment read' := by
  have hglobal : environment.globalConfig?.bind read = environment.globalConfig?.bind read' := by
    cases hpath : environment.globalConfig? with
    | none => rfl
    | some path => exact h path (by simp [Request.sources, hpath])
  have hproject : read projectConfig = read' projectConfig := h projectConfig (by simp [Request.sources])
  have hinput : read request.input = read' request.input := h request.input (by simp [Request.sources])
  have hsettings : request.settings readers.settings? environment read =
      request.settings readers.settings? environment read' := by
    rw [Request.settings, Request.settings, hglobal, hproject]
    cases hpath : request.config with
    | none => rfl
    | some path => simp only [h path (by simp [Request.sources, hpath])]
  have hprogram : request.program readers.program? read = request.program readers.program? read' := by
    rw [Request.program, Request.program, hinput]
  rw [Request.lower, Request.lower, hsettings, hprogram]

/-- A run of a request is over when the files that it looks at have been read and its script is delivered. -/
theorem Request.run_eq (state : σ) :
    (request.run readers system.files environment).run state =
      (request.deliver system.files (request.lower readers environment (system.content state))).run state := by
  have hlower : request.lower readers environment
      ((found (system.content state) (request.sources environment)).lookup ·) =
        request.lower readers environment (system.content state) := by
    refine request.lower_congr readers environment fun path hpath => ?_
    rw [lookup_found, if_pos hpath]
  rw [Request.run, StateT.run_bind, system.readAll_eq, ← hlower]
  rfl

end

/-! ### What a request resolves to -/

/-- The options that a request resolves to: what it says itself, over the configuration files that can be read, the
explicit one over that of the project and this one over that of the user.  There are none when a file that the request
names cannot be read. -/
def Request.options? (request : Request) (parse : String → Option Settings) (environment : Environment)
    (read : String → Option String) : Option Options :=
  if (request.config.bind read).isSome = request.config.isSome then
    (Settings.ofLayers? parse (environment.globalConfig?.bind read) (read projectConfig)
      (request.config.bind read)).map (·.options request.mode request.keepGoing)
  else none

/-- The program that a request is about, when its file can be read. -/
def Request.program? (request : Request) (decode : String → Option Program) (read : String → Option String) :
    Option Program :=
  (read request.input).bind decode

/-- An item of a program cannot be lowered, and this is its fault. -/
def HasFault (program : Program) (mode : Mode) (fault : ItemFault) : Prop :=
  ∃ item, program.items[fault.index]? = some item ∧ item.node.lower mode = .error fault.cause ∧
    fault.kind = item.node.kind ∧ fault.span = item.span

section

variable {σ : Type} (system : FileSystem σ) (readers : Readers) (request : Request) (environment : Environment)
  (state : σ)

/-- What a script is made from: the options and the program of a request. -/
def Resolves (options : Options) (program : Program) : Prop :=
  request.options? readers.settings? environment (system.content state) = some options ∧
    request.program? readers.program? (system.content state) = some program

/-- What keeps a run from writing its script: a configuration or an input that cannot be read or understood, an item
that fails where no item may be left out, or an output file to which the script cannot be written. -/
inductive Obstacle : Failure → Prop where
  | unreadableConfig {path : String} (hconfig : request.config = some path)
      (hread : system.content state path = none) : Obstacle (.unreadableConfig path)
  | invalidConfig {path text : String} (hconfig : request.config = some path)
      (hread : system.content state path = some text) (htext : readers.settings? text = none) :
      Obstacle (.invalidConfig path)
  | unreadableInput (hread : system.content state request.input = none) : Obstacle (.unreadableInput request.input)
  | invalidInput {text : String} (hread : system.content state request.input = some text)
      (htext : readers.program? text = none) : Obstacle (.invalidInput request.input)
  | failedItem {options : Options} {program : Program} {fault : ItemFault}
      (hresolves : Resolves system readers request environment state options program)
      (hpolicy : options.policy = .failFast) (hfault : HasFault program options.mode fault) :
      Obstacle (.itemFault fault)
  | unwritableOutput {path : String} {options : Options} {program : Program} {output : Output}
      (hresolves : Resolves system readers request environment state options program)
      (hlower : program.lower options = .ok output) (houtput : request.output = some path)
      (hwrite : ((system.files.write path output.script).run state).1 = false) : Obstacle (.unwritableOutput path)

end

/-! ### Scripts and obstacles -/

section

variable {σ : Type} {system : FileSystem σ} {readers : Readers} {request : Request} {environment : Environment}
  {state : σ}

theorem Request.options?_eq (request : Request) (parse : String → Option Settings) (environment : Environment)
    (read : String → Option String) :
    request.options? parse environment read =
      (request.settings parse environment read).toOption.map (·.options request.mode request.keepGoing) := by
  rw [Request.options?, Request.settings]
  cases request.config with
  | none => rfl
  | some path =>
    cases hread : read path with
    | none => simp [hread, Except.toOption]
    | some text =>
      simp only [hread, Option.bind_some, Option.isSome_some, if_true, Settings.ofLayers?]
      cases parse text <;> rfl

theorem Request.program?_eq (request : Request) (decode : String → Option Program) (read : String → Option String) :
    request.program? decode read = (request.program decode read).toOption := by
  rw [Request.program?, Request.program]
  cases read request.input with
  | none => rfl
  | some text =>
    simp only [Option.bind_some]
    cases decode text <;> rfl

theorem obstacle_of_settings {failure : Failure}
    (h : request.settings readers.settings? environment (system.content state) = .error failure) :
    Obstacle system readers request environment state failure := by
  rw [Request.settings] at h
  split at h
  · contradiction
  · next path hconfig =>
    split at h
    · next hread =>
      injection h with h
      exact h ▸ .unreadableConfig hconfig hread
    · next text hread =>
      split at h
      · next htext =>
        injection h with h
        exact h ▸ .invalidConfig hconfig hread htext
      · contradiction

theorem obstacle_of_program {failure : Failure}
    (h : request.program readers.program? (system.content state) = .error failure) :
    Obstacle system readers request environment state failure := by
  rw [Request.program] at h
  split at h
  · next hread =>
    injection h with h
    exact h ▸ .unreadableInput hread
  · next text hread =>
    split at h
    · next htext =>
      injection h with h
      exact h ▸ .invalidInput hread htext
    · contradiction

/-- What a request comes to: it meets an obstacle, or its script is that of its program. -/
theorem Request.lower_cases (system : FileSystem σ) (readers : Readers) (request : Request) (environment : Environment)
    (state : σ) :
    (∃ failure, Obstacle system readers request environment state failure ∧
      request.lower readers environment (system.content state) = .error failure) ∨
    ∃ options program, Resolves system readers request environment state options program ∧
      request.lower readers environment (system.content state) = (program.lower options).mapError .itemFault := by
  cases hsettings : request.settings readers.settings? environment (system.content state) with
  | error failure =>
    refine .inl ⟨failure, obstacle_of_settings hsettings, ?_⟩
    rw [Request.lower, hsettings]
    rfl
  | ok settings =>
    cases hprogram : request.program readers.program? (system.content state) with
    | error failure =>
      refine .inl ⟨failure, obstacle_of_program hprogram, ?_⟩
      rw [Request.lower, hsettings, hprogram]
      rfl
    | ok program =>
      refine .inr ⟨settings.options request.mode request.keepGoing, program, ⟨?_, ?_⟩, ?_⟩
      · rw [Request.options?_eq, hsettings]
        rfl
      · rw [Request.program?_eq, hprogram]
        rfl
      · rw [Request.lower, hsettings, hprogram]
        simp only [bind, Except.bind]
        cases program.lower (settings.options request.mode request.keepGoing) <;> rfl

/-- The faults of a program are those of its items. -/
theorem mem_faults_iff {program : Program} {mode : Mode} {fault : ItemFault} :
    fault ∈ (lowerItems mode 0 program.items).2 ↔ HasFault program mode fault := by
  rw [lowerItems_faults]
  constructor
  · rintro ⟨position, item, hitem, hcause, hindex, hshape⟩
    rw [Nat.zero_add] at hindex
    exact ⟨item, hindex ▸ hitem, hcause, hshape⟩
  · rintro ⟨item, hitem, hcause, hshape⟩
    exact ⟨fault.index, item, hitem, hcause, (Nat.zero_add _).symm, hshape⟩

/-- The faults of a script are those of the items, in the order of the items. -/
theorem faults_of_lower {program : Program} {options : Options} {output : Output}
    (h : program.lower options = .ok output) :
    (∀ fault, fault ∈ output.faults ↔ HasFault program options.mode fault) ∧
      (output.faults.map (·.index)).Pairwise (· < ·) := by
  have hfaults : output.faults = (lowerItems options.mode 0 program.items).2 :=
    congrArg Output.faults (Program.output_eq h)
  rw [hfaults]
  exact ⟨fun fault => mem_faults_iff, lowerItems_sorted options.mode 0 program.items⟩

/-- A program fails as a whole only where no item may be left out, and with the fault of one of them. -/
theorem hasFault_of_lower {program : Program} {options : Options} {fault : ItemFault}
    (h : program.lower options = .error fault) :
    options.policy = .failFast ∧ HasFault program options.mode fault := by
  obtain ⟨mode, policy⟩ := options
  cases policy with
  | collect =>
    rw [Program.lower_collect] at h
    contradiction
  | failFast =>
    rw [Program.lower_failFast] at h
    split at h
    · contradiction
    · next first rest hfaults =>
      injection h with h
      exact ⟨rfl, mem_faults_iff.mp (h ▸ hfaults ▸ List.mem_cons_self)⟩

/-- No program with an item that fails is lowered where no item may be left out. -/
theorem HasFault.lower_ne_ok {program : Program} {options : Options} {fault : ItemFault}
    (h : HasFault program options.mode fault) (hpolicy : options.policy = .failFast) (output : Output) :
    program.lower options ≠ .ok output := by
  intro hlower
  obtain ⟨mode, policy⟩ := options
  subst hpolicy
  have hmem := mem_faults_iff.mpr h
  rw [Program.lower_failFast] at hlower
  split at hlower
  · next hfaults =>
    rw [hfaults] at hmem
    exact absurd hmem List.not_mem_nil
  · contradiction

/-- A request that gets no script has met an obstacle. -/
theorem obstacle_of_lower {failure : Failure}
    (h : request.lower readers environment (system.content state) = .error failure) :
    Obstacle system readers request environment state failure := by
  rcases Request.lower_cases system readers request environment state with
    ⟨other, hobstacle, hother⟩ | ⟨options, program, hresolves, hlower⟩
  · rw [hother] at h
    injection h with h
    exact h ▸ hobstacle
  · rw [hlower] at h
    cases hprogram : program.lower options with
    | ok output =>
      rw [hprogram] at h
      contradiction
    | error fault =>
      rw [hprogram] at h
      injection h with h
      obtain ⟨hpolicy, hfault⟩ := hasFault_of_lower hprogram
      exact h ▸ .failedItem hresolves hpolicy hfault

/-- A script that a request gets is that of its program. -/
theorem resolves_of_lower {output : Output}
    (h : request.lower readers environment (system.content state) = .ok output) :
    ∃ options program, Resolves system readers request environment state options program ∧
      program.lower options = .ok output := by
  rcases Request.lower_cases system readers request environment state with
    ⟨failure, -, hfailure⟩ | ⟨options, program, hresolves, hlower⟩
  · rw [hfailure] at h
    contradiction
  · refine ⟨options, program, hresolves, ?_⟩
    rw [hlower] at h
    cases hprogram : program.lower options with
    | ok lowered =>
      rw [hprogram] at h
      injection h with h
      rw [h]
    | error fault =>
      rw [hprogram] at h
      contradiction

/-- Behind an obstacle a script finds no place. -/
theorem Obstacle.unwritten {failure : Failure} (h : Obstacle system readers request environment state failure)
    {output : Output} (hlower : request.lower readers environment (system.content state) = .ok output) :
    ∃ path, request.output = some path ∧ ((system.files.write path output.script).run state).1 = false := by
  obtain ⟨options, program, ⟨hoptions, hprogram⟩, houtput⟩ := resolves_of_lower hlower
  cases h with
  | unreadableConfig hconfig hread =>
    simp [Request.options?, hconfig, hread] at hoptions
  | invalidConfig hconfig hread htext =>
    simp [Request.options?, hconfig, hread, Settings.ofLayers?, htext] at hoptions
  | unreadableInput hread =>
    simp [Request.program?, hread] at hprogram
  | invalidInput hread htext =>
    simp [Request.program?, hread, htext] at hprogram
  | failedItem hresolves hpolicy hfault =>
    obtain rfl := Option.some.inj (hoptions.symm.trans hresolves.1)
    obtain rfl := Option.some.inj (hprogram.symm.trans hresolves.2)
    exact absurd houtput (hfault.lower_ne_ok hpolicy output)
  | unwritableOutput hresolves hscript htarget hwrite =>
    obtain rfl := Option.some.inj (hoptions.symm.trans hresolves.1)
    obtain rfl := Option.some.inj (hprogram.symm.trans hresolves.2)
    obtain rfl := Except.ok.inj (houtput.symm.trans hscript)
    exact ⟨_, htarget, hwrite⟩

end

/-! ### Reports -/

/-- What a message says about a fault. -/
def causeText : Fault → String
  | .unsupported (.nestedType .struct) => "unsupported struct inside a type body"
  | .unsupported (.nestedType .reference) => "unsupported class inside a type body"
  | .unsupported (.nestedType .protocol) => "unsupported protocol inside a type body"
  | .unsupported .looseInitializer => "unsupported initializer outside a type body"
  | .unsupported .caseWithoutPatterns => "unsupported case without patterns"
  | .unsupported .rangePattern => "unsupported range as a switch case pattern"
  | .unknownOperator .assignment spelling => "unsupported assignment operator `" ++ spelling ++ "`"
  | .unknownOperator .binary spelling => "unsupported binary operator `" ++ spelling ++ "`"
  | .unknownOperator .logical spelling => "unsupported logical operator `" ++ spelling ++ "`"
  | .unknownOperator .unary spelling => "unsupported unary operator `" ++ spelling ++ "`"
  | .misplacedVariadic function parameter =>
    "variadic parameter `" ++ parameter ++ "` of `" ++ function ++ "` must be the only variadic and the last parameter"

/-- What a message says about an item: its index, its kind, its place where that is known, and what is wrong. -/
def itemText (fault : ItemFault) : String :=
  match fault.span with
  | some span =>
    "item " ++ toString fault.index ++ " (" ++ fault.kind ++ " at " ++ toString span.line.toNat ++ ":" ++
      toString span.column.toNat ++ "): " ++ causeText fault.cause
  | none => "item " ++ toString fault.index ++ " (" ++ fault.kind ++ "): " ++ causeText fault.cause

/-- What a message says about a failure, in front of the reason. -/
def subjectText : Failure → String
  | .unreadableConfig path => "failed to read config " ++ path
  | .invalidConfig path => "invalid config " ++ path
  | .unreadableInput path => "failed to read " ++ path
  | .invalidInput path => "failed to parse AST from " ++ path
  | .itemFault fault => itemText fault
  | .unwritableOutput path => "failed to write " ++ path

theorem message_eq_causeText (fault : Fault) : fault.message = causeText fault := by
  cases fault with
  | unsupported node =>
    cases node with
    | nestedType kind => cases kind <;> rfl
    | _ => rfl
  | unknownOperator family spelling => cases family <;> rfl
  | misplacedVariadic function parameter => rfl

theorem message_eq_itemText (fault : ItemFault) : fault.message = itemText fault := by
  obtain ⟨index, kind, span, cause⟩ := fault
  have hcause : ItemFault.message ⟨index, kind, span, cause⟩ =
      "item " ++ toString index ++ " (" ++ kind ++ placeText span ++ "): " ++ causeText cause :=
    congrArg (_ ++ ·) (message_eq_causeText cause)
  refine hcause.trans ?_
  cases span with
  | none =>
    have hfront : "item " ++ toString index ++ " (" ++ kind ++ "" = "item " ++ toString index ++ " (" ++ kind :=
      String.append_empty
    exact congrArg (· ++ "): " ++ causeText cause) hfront
  | some span => simp only [itemText, placeText, String.append_assoc]

theorem message_eq_subjectText (failure : Failure) :
    ∃ reason, failure.message = subjectText failure ++ ": " ++ reason := by
  have hreason (subject reason : String) : subject ++ (": " ++ reason) = subject ++ ": " ++ reason :=
    String.append_assoc.symm
  cases failure with
  | itemFault fault => exact ⟨_, congrArg (· ++ ": " ++ fault.cause.message) (message_eq_itemText fault)⟩
  | unreadableConfig path => exact ⟨_, hreason ("failed to read config " ++ path) "the file cannot be read"⟩
  | invalidConfig path => exact ⟨_, hreason ("invalid config " ++ path) "the text is no configuration"⟩
  | unreadableInput path => exact ⟨_, hreason ("failed to read " ++ path) "the file cannot be read"⟩
  | invalidInput path => exact ⟨_, hreason ("failed to parse AST from " ++ path) "the text is no program"⟩
  | unwritableOutput path => exact ⟨_, hreason ("failed to write " ++ path) "the file cannot be written"⟩

/-- The report of a run without a script: it prints one message, about the failure. -/
structure Refused (failure : Failure) (report : Report) : Prop where
  exitCode : report.exitCode = 1
  output : report.output = ""
  errorLines : ∃ reason, report.errorLines = ["error: " ++ (subjectText failure ++ ": " ++ reason)]

theorem refused_ofFailure (failure : Failure) : Refused failure (.ofFailure failure) := by
  obtain ⟨reason, hreason⟩ := message_eq_subjectText failure
  refine ⟨rfl, rfl, reason, ?_⟩
  rw [← hreason]
  rfl

section

variable {σ : Type} (system : FileSystem σ) (request : Request)

/-- A script has been delivered: the faults of the items that it leaves out are reported in the order of the items, the
exit code says whether there are any, and the script is in the output file alone or on the standard output alone. -/
structure Delivered (program : Program) (mode : Mode) (output : Output) (state : σ) (report : Report) (after : σ) :
    Prop where
  errorLines : report.errorLines = output.faults.map fun fault => "error: " ++ itemText fault
  faults : ∀ fault, fault ∈ output.faults ↔ HasFault program mode fault
  inOrder : (output.faults.map (·.index)).Pairwise (· < ·)
  success : report.exitCode = 0 ↔ output.faults = []
  partly : output.faults ≠ [] → report.exitCode = 1
  printed : request.output = none → report.output = output.script ∧ after = state
  written : ∀ path, request.output = some path → report.output = "" ∧
    system.content after path = some output.script ∧
      ∀ other, ¬ system.SameFile state path other → system.content after other = system.content state other

end

/-- The exit code is zero when no item was left out, and one otherwise. -/
theorem exitCode_ofOutput (output : Output) (printed : String) :
    ((Report.ofOutput output printed).exitCode = 0 ↔ output.faults = []) ∧
      (output.faults ≠ [] → (Report.ofOutput output printed).exitCode = 1) := by
  rw [Report.ofOutput, Output.isComplete]
  cases output.faults with
  | nil => exact ⟨⟨fun _ => rfl, fun _ => rfl⟩, fun h => absurd rfl h⟩
  | cons fault rest => exact ⟨⟨nofun, nofun⟩, fun _ => rfl⟩

/-- The lines for the standard error are those of the faults. -/
theorem errorLines_ofOutput (output : Output) (printed : String) :
    (Report.ofOutput output printed).errorLines = output.faults.map fun fault => "error: " ++ itemText fault := by
  rw [Report.errorLines, Report.ofOutput, List.map_map]
  exact List.map_congr_left fun fault _ => congrArg ("error: " ++ ·) (message_eq_itemText fault)

/-! ### Runs -/

section

variable {σ : Type} {system : FileSystem σ} {readers : Readers} {request : Request} {environment : Environment}
  {state : σ}

/-- The output file of a script that has been written. -/
theorem FileSystem.written_of_run {path text : String} {after : σ}
    (h : (system.files.write path text).run state = (true, after)) :
    system.content after path = some text ∧
      ∀ other, ¬ system.SameFile state path other → system.content after other = system.content state other :=
  ⟨(system.written state path text after h path).1 (system.sameFile_refl state path),
    fun other => (system.written state path text after h other).2⟩

/-- A script for a file is delivered by one write. -/
theorem Request.deliver_eq {output : Output} {path : String} (hpath : request.output = some path) {success : Bool}
    {after : σ} (hwrite : (system.files.write path output.script).run state = (success, after)) :
    (request.deliver system.files (.ok output)).run state =
      (if success then .ofOutput output "" else .ofFailure (.unwritableOutput path), after) := by
  rw [Request.deliver, hpath]
  dsimp only
  rw [StateT.run_bind, hwrite]
  cases success <;> rfl

/-- A run that meets an obstacle reports one, and leaves everything as it is. -/
theorem Obstacle.run_refused {failure : Failure} (h : Obstacle system readers request environment state failure) :
    ∃ failure report, Obstacle system readers request environment state failure ∧
      (request.run readers system.files environment).run state = (report, state) ∧ Refused failure report := by
  rw [Request.run_eq]
  cases hlower : request.lower readers environment (system.content state) with
  | error failure => exact ⟨failure, _, obstacle_of_lower hlower, rfl, refused_ofFailure failure⟩
  | ok output =>
    obtain ⟨options, program, hresolves, houtput⟩ := resolves_of_lower hlower
    obtain ⟨path, hpath, hfailed⟩ := h.unwritten hlower
    obtain ⟨after, hwrite⟩ : ∃ after, (system.files.write path output.script).run state = (false, after) :=
      ⟨_, Prod.ext hfailed rfl⟩
    obtain rfl := system.unwritten state path output.script after hwrite
    exact ⟨.unwritableOutput path, _, .unwritableOutput hresolves houtput hpath hfailed,
      Request.deliver_eq hpath hwrite, refused_ofFailure _⟩

/-- A run that meets no obstacle delivers its script. -/
theorem Request.run_delivered (h : ¬ ∃ failure, Obstacle system readers request environment state failure) :
    ∃ options program output report after, Resolves system readers request environment state options program ∧
      program.lower options = .ok output ∧
      (request.run readers system.files environment).run state = (report, after) ∧
      Delivered system request program options.mode output state report after := by
  rw [Request.run_eq]
  cases hlower : request.lower readers environment (system.content state) with
  | error failure => exact absurd ⟨failure, obstacle_of_lower hlower⟩ h
  | ok output =>
    obtain ⟨options, program, hresolves, houtput⟩ := resolves_of_lower hlower
    obtain ⟨hfaults, horder⟩ := faults_of_lower houtput
    cases hpath : request.output with
    | none =>
      obtain ⟨hsuccess, hpartly⟩ := exitCode_ofOutput output output.script
      refine ⟨options, program, output, .ofOutput output output.script, state, hresolves, houtput, ?_,
        errorLines_ofOutput _ _, hfaults, horder, hsuccess, hpartly, fun _ => ⟨rfl, rfl⟩, fun path hsome => ?_⟩
      · rw [Request.deliver, hpath]
        rfl
      · rw [hpath] at hsome
        contradiction
    | some path =>
      rcases hwrite : (system.files.write path output.script).run state with ⟨success, after⟩
      cases success with
      | false =>
        refine absurd ⟨.unwritableOutput path, .unwritableOutput hresolves houtput hpath ?_⟩ h
        rw [hwrite]
      | true =>
        obtain ⟨hsuccess, hpartly⟩ := exitCode_ofOutput output ""
        refine ⟨options, program, output, .ofOutput output "", after, hresolves, houtput,
          Request.deliver_eq hpath hwrite, errorLines_ofOutput _ _, hfaults, horder, hsuccess, hpartly, fun hnone => ?_,
          fun other hother => ⟨rfl, ?_⟩⟩
        · rw [hpath] at hnone
          contradiction
        · obtain rfl := Option.some.inj (hpath.symm.trans hother)
          exact system.written_of_run hwrite

end

/-- **A run writes to one place or to none.**  Whatever the file system and however texts are understood: where the run
of a request meets an obstacle, the exit code is one, nothing is printed to the standard output, the message is about an
obstacle, and everything stays as it is.  Where it meets none, the script of the program under the resolved options is
delivered. -/
theorem run_writes_once {σ : Type} (system : FileSystem σ) (readers : Readers) {arguments : List String}
    {request : Request} (h : readers.invocation arguments = .run request) (environment : Environment) (state : σ) :
    ((∃ failure, Obstacle system readers request environment state failure) →
      ∃ failure report, Obstacle system readers request environment state failure ∧
        (run readers system.files arguments environment).run state = (report, state) ∧ Refused failure report) ∧
    ((¬ ∃ failure, Obstacle system readers request environment state failure) →
      ∃ options program output report after, Resolves system readers request environment state options program ∧
        program.lower options = .ok output ∧
        (run readers system.files arguments environment).run state = (report, after) ∧
        Delivered system request program options.mode output state report after) := by
  have hrun : run readers system.files arguments environment = request.run readers system.files environment := by
    rw [run, h]
  rw [hrun]
  refine ⟨?_, Request.run_delivered⟩
  rintro ⟨failure, hobstacle⟩
  exact hobstacle.run_refused

/-- Files as a map from paths to texts, of which some can be written. -/
def mapFiles (writable : String → Bool) : Files (StateM (String → Option String)) where
  read? path := fun state => (state path, state)
  write path text := fun state =>
    if writable path then (true, Function.update state path (some text)) else (false, state)

theorem mapFiles_write (writable : String → Bool) (path text : String) (state : String → Option String) :
    ((mapFiles writable).write path text).run state =
      if writable path then (true, Function.update state path (some text)) else (false, state) := rfl

/-- A map from paths to texts is a file system, in which every path leads to a file of its own. -/
def mapSystem (writable : String → Bool) : FileSystem (String → Option String) where
  files := mapFiles writable
  content state := state
  SameFile _ path other := path = other
  sameFile_refl _ _ := rfl
  read_eq _ _ := rfl
  unwritten state path text after h := by
    rw [mapFiles_write] at h
    split at h
    · exact absurd (congrArg Prod.fst h) Bool.true_eq_false.mp
    · exact (congrArg Prod.snd h).symm
  written state path text after h other := by
    rw [mapFiles_write] at h
    split at h
    · obtain rfl : Function.update state path (some text) = after := congrArg Prod.snd h
      refine ⟨fun hsame => ?_, fun hother => Function.update_of_ne (Ne.symm hother) _ _⟩
      rw [← hsame, Function.update_self]
    · exact absurd (congrArg Prod.fst h) Bool.false_eq_true.mp

/-- A program of two items, the second of which has an operator that is not supported, a configuration of the user by
which it is left out, and another file. -/
def sampleFiles : String → Option String
  | "/src/p.json" => some "[[[\"blank\",null],[\x7b\"expr\":\x7b\"unary\":[\"?\",\"self\"]\x7d\x7d,null]]]"
  | "/home/u/.config/transpose/config.toml" => some "[codegen]\nerror_policy = \"collect\"\n"
  | "a.ts" => some "old"
  | _ => none

theorem no_obstacle_sampleFiles (failure : Failure) :
    ¬ Obstacle (mapSystem fun _ => true) .standard ⟨"/src/p.json", some "/out/p.ts", none, false, none⟩
      ⟨none, some "/home/u"⟩ sampleFiles failure := by
  intro h
  have hprogram : ((sampleFiles "/src/p.json").bind Program.ofText?).isSome = true := by decide +kernel
  have hoptions : Request.options? ⟨"/src/p.json", some "/out/p.ts", none, false, none⟩ Settings.ofText?
      ⟨none, some "/home/u"⟩ sampleFiles = some ⟨.native, .collect⟩ := by decide +kernel
  cases h with
  | unreadableConfig hconfig => exact absurd hconfig (Option.some_ne_none _).symm
  | invalidConfig hconfig => exact absurd hconfig (Option.some_ne_none _).symm
  | unreadableInput hread =>
    rw [show sampleFiles "/src/p.json" = none from hread] at hprogram
    exact Bool.false_ne_true hprogram
  | @invalidInput text hread htext =>
    rw [show sampleFiles "/src/p.json" = some text from hread, Option.bind_some,
      show Program.ofText? text = none from htext] at hprogram
    exact Bool.false_ne_true hprogram
  | failedItem hresolves hpolicy =>
    obtain rfl := Option.some.inj (hoptions.symm.trans hresolves.1)
    exact absurd hpolicy (by decide)
  | unwritableOutput _ _ _ hwrite => exact Bool.false_ne_true (Eq.symm hwrite)

/-- A named configuration that is missing is an obstacle.  Without it the script goes to its file, and the item that it
leaves out is reported. -/
theorem run_writes_once_sampleFiles :
    (∃ failure report, (run .standard (mapSystem fun _ => true).files ["/src/p.json", "--config", "c.toml"]
        ⟨none, some "/home/u"⟩).run sampleFiles = (report, sampleFiles) ∧ Refused failure report) ∧
    ∃ output report after, (run .standard (mapSystem fun _ => true).files ["/src/p.json", "-o", "/out/p.ts"]
        ⟨none, some "/home/u"⟩).run sampleFiles = (report, after) ∧
      report.exitCode = 1 ∧ report.output = "" ∧
      report.errorLines = ["error: item 1 (expression statement): unsupported unary operator `?`"] ∧
      after "/out/p.ts" = some (Output.script output) ∧ after "a.ts" = some "old" := by
  constructor
  · have harguments : Readers.standard.invocation ["/src/p.json", "--config", "c.toml"] =
        .run ⟨"/src/p.json", none, none, false, some "c.toml"⟩ := by decide +kernel
    have hmissing : sampleFiles "c.toml" = none := by decide +kernel
    obtain ⟨failure, report, -, hrun, hrefused⟩ :=
      (run_writes_once (mapSystem fun _ => true) .standard harguments ⟨none, some "/home/u"⟩ sampleFiles).1
        ⟨_, .unreadableConfig rfl hmissing⟩
    exact ⟨failure, report, hrun, hrefused⟩
  · have harguments : Readers.standard.invocation ["/src/p.json", "-o", "/out/p.ts"] =
        .run ⟨"/src/p.json", some "/out/p.ts", none, false, none⟩ := by decide +kernel
    have hreport : ((run .standard (mapSystem fun _ => true).files ["/src/p.json", "-o", "/out/p.ts"]
        ⟨none, some "/home/u"⟩).run sampleFiles).1 =
          ⟨1, "", ["item 1 (expression statement): unsupported unary operator `?`"]⟩ := by decide +kernel
    have hold : sampleFiles "a.ts" = some "old" := by decide +kernel
    obtain ⟨options, program, output, report, after, -, -, hrun, hdelivered⟩ :=
      (run_writes_once (mapSystem fun _ => true) .standard harguments ⟨none, some "/home/u"⟩ sampleFiles).2
        fun ⟨failure, hobstacle⟩ => no_obstacle_sampleFiles failure hobstacle
    obtain ⟨-, hscript, hothers⟩ := hdelivered.written "/out/p.ts" rfl
    obtain rfl := (congrArg Prod.fst hrun).symm.trans hreport
    have hapart : "/out/p.ts" ≠ "a.ts" := by decide
    exact ⟨output, _, after, hrun, rfl, rfl, rfl, hscript, (hothers "a.ts" hapart).trans hold⟩

end ScriptLowering.CommandLine
