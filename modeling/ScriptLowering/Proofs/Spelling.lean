import ScriptLowering.Proofs.Block

/-!
# Statements as phrases

Every statement is written as its nodes ask: all brackets it opens are closed again, and its Double literals are
written once each, in their order.

* `Opens`, `Closes` — steps that leave one brace open, or close one;
* `Unwrapped` — what unwrapping a value writes;
* `Written` — the steps of a statement by themselves, and in the other branch of a conditional;
* `Stmt.steps_spelled` — statements and declarations;
* `Stmt.lower_phrase` — the text of a statement is a phrase of its nodes.
-/

namespace ScriptLowering

variable {W : Word → Prop} (mode : Mode)

/-! ### Parts of statements -/

/-- The steps write the Double literals of the nodes and leave one brace open. -/
def Opens (W : Word → Prop) (nodes : List Node) (steps : List Step) : Prop :=
  ∀ closers doubles, Lines W ⟨closers, owed nodes doubles⟩ ⟨'}' :: closers, doubles⟩ steps

/-- The steps write the Double literals of the nodes and close one brace. -/
def Closes (W : Word → Prop) (nodes : List Node) (steps : List Step) : Prop :=
  ∀ closers doubles, Lines W ⟨'}' :: closers, owed nodes doubles⟩ ⟨closers, doubles⟩ steps

/-- A value is unwrapped: it stands either in front of the test or in it, and the lines that bind the result hold
no Double literal. -/
structure Unwrapped (W : Word → Prop) (nodes : List Node) (unwrapping : Unwrapping) : Prop where
  value : ∀ closers doubles, ∃ between,
    Lines W ⟨closers, owed nodes doubles⟩ ⟨closers, between⟩ unwrapping.before ∧
      ∀ inner, Phrase W ⟨inner, between⟩ ⟨inner, doubles⟩ unwrapping.subject
  binding : Block W [] unwrapping.binding

theorem unwrap_spelled {name : String} {value : Expr} (hname : W (.name name)) (hwords : AllWords W value.nodes) :
    GivesWriting (unwrap mode name value) (Unwrapped W value.nodes) := by
  rw [unwrap]
  refine (Emits.lift (value.text_spelled W mode hwords)).bind fun text htext => ?_
  split
  · exact Emits.pure ⟨fun _ doubles => ⟨_, .nil, fun inner => htext inner doubles⟩, .nil rfl⟩
  · refine (Emits.drawTemporary .opt).bind fun temporary _ => Emits.pure ⟨fun closers doubles => ?_, ?_⟩
    · exact ⟨doubles, .keep (htext closers doubles), fun _ => temporary.name_phrase⟩
    · exact mode.bindRaw_block (Identifier.safe_spells hname) (fun _ _ => temporary.name_phrase)
        fun _ _ => Phrase.fixed _ rfl

theorem loopSteps_spelled {counter : String} {sequence : Expr} (hcounter : W (.name counter))
    (hwords : AllWords W sequence.nodes) :
    GivesWriting (loopSteps mode counter sequence) (Opens W sequence.nodes) := by
  have hraw : ∀ {p : Pending}, Phrase W p p (mode.rawName (Identifier.safe counter)) :=
    mode.rawName_phrase (Identifier.safe_phrase hcounter)
  have hbinding : ∀ {tag : String}, Spells W [] tag → Block W []
      (Step.ofOption (mode.bindRaw (Identifier.safe counter) (mode.rawName (Identifier.safe counter)) tag)) :=
    mode.bindRaw_block (Identifier.safe_spells hcounter) fun _ _ => hraw
  unfold loopSteps
  split
  · next lower upper inclusive =>
    rw [Expr.nodes, allWords_cons, allWords_append] at hwords
    refine (Emits.lift (lower.text_spelled W mode hwords.2.1)).bind fun lowerText hlower => ?_
    refine (Emits.lift (upper.text_spelled W mode hwords.2.2)).bind fun upperText hupper => ?_
    have hsteps : ∀ bound : Option Temporary, Opens W (Expr.range lower upper inclusive).nodes
        (.loop ⟨mode.rawName (Identifier.safe counter), lowerText, upperText, inclusive, bound⟩ :: Step.ofOption
          (mode.bindRaw (Identifier.safe counter) (mode.rawName (Identifier.safe counter)) "number")) := by
      intro bound closers doubles
      rw [Expr.nodes, owed_skip rfl, owed_append]
      refine .cons (.single rfl ?_) (hbinding (fun _ _ => Phrase.fixed _ rfl) _ doubles)
      exact (CountedLoop.header_phrase hraw (hlower _ _) (hupper _ doubles)).thenFixed rfl
    split
    · exact Emits.pure (hsteps none)
    · exact (Emits.map (Q := fun _ => True) (Emits.drawTemporary .bound) fun _ _ => trivial).bind fun bound _ =>
        Emits.pure (hsteps bound)
  · refine (Emits.lift (Expr.text_spelled W mode _ hwords)).bind fun text htext => ?_
    refine Emits.pure fun closers doubles => ?_
    refine .cons (.opening ?_) (hbinding (fun _ _ => Phrase.fixed _ rfl) _ doubles)
    exact ((((Phrase.fixed _ rfl).append hraw).thenFixed rfl).append (htext _ doubles)).thenFixed rfl

theorem caseLabel_spelled {pattern : Expr} (hwords : AllWords W pattern.nodes) :
    Gives (caseLabel mode pattern) (Spells W pattern.nodes) := by
  unfold caseLabel
  split
  · exact Outcome.error trivial
  · refine (pattern.text_spelled W mode hwords).bind fun text htext => Outcome.pure fun closers doubles => ?_
    exact ((Phrase.fixed _ rfl).append (htext closers doubles)).thenFixed rfl

/-- The labels of a case hold the Double literals of its patterns, and the last one opens the body. -/
theorem patternSteps_spelled {patterns : List Expr} (hwords : AllWords W (Expr.patternNodes patterns)) :
    Gives (patternSteps mode patterns) (Opens W (Expr.patternNodes patterns)) := by
  induction patterns with
  | nil => exact Outcome.error trivial
  | cons pattern rest ih =>
    rw [Expr.patternNodes, List.flatMap_cons, allWords_append, allWords_cons] at hwords
    have hlabel := caseLabel_spelled mode hwords.1.2
    rw [Expr.patternNodes, List.flatMap_cons]
    cases rest with
    | nil =>
      refine hlabel.bind fun label hlabel => Outcome.pure fun closers doubles => ?_
      rw [List.flatMap_nil, List.append_nil, owed_skip rfl]
      exact .opening (hlabel closers doubles)
    | cons next rest =>
      refine hlabel.bind fun label hlabel => (ih hwords.2).bind fun others hothers => ?_
      refine Outcome.pure fun closers doubles => ?_
      rw [owed_append, owed_skip rfl]
      exact .cons (.line (hlabel closers _)) (hothers closers doubles)

/-- The way from the body of a `try` to its handler holds no Double literal. -/
theorem catchSteps_lines {closers : List Char} {doubles : List String} :
    Lines W ⟨'}' :: closers, doubles⟩ ⟨'}' :: closers, doubles⟩ (catchSteps mode) := by
  have hname : ∀ {p : Pending}, Phrase W p p caughtName := Phrase.fixed _ rfl
  have hraw : ∀ {p : Pending}, Phrase W p p (mode.rawName caughtName) := mode.rawName_phrase hname
  refine .cons (.reopening (((Phrase.fixed _ rfl).append hraw).thenFixed rfl)) ?_
  exact mode.bindRaw_block (fun _ _ => hname) (fun _ _ => hraw) (fun _ _ => Phrase.fixed _ rfl) _ doubles

/-! ### Statements and declarations -/

/-- The steps of a statement, by themselves and in the other branch of a conditional. -/
structure Written (W : Word → Prop) (statement : Stmt) (steps : List Step) : Prop where
  block : Block W statement.nodes steps
  chained : Closes W statement.nodes (chain statement steps)

/-- A statement that is not chained stands between braces of its own. -/
theorem Written.of_block {statement : Stmt} {steps : List Step} (h : Block W statement.nodes steps)
    (hchain : chain statement steps = .reopening "else" :: steps ++ [.closing ""]) : Written W statement steps := by
  refine ⟨h, fun closers doubles => ?_⟩
  rw [hchain]
  exact (Lines.cons (.reopening (.fixed _ rfl)) (h _ doubles)).append .close

/-- When its words have the property `W`, the statement is written as its nodes ask. -/
def Stmt.Spelled (W : Word → Prop) (mode : Mode) (statement : Stmt) : Prop :=
  AllWords W statement.nodes → GivesWriting (statement.steps mode) (Written W statement)

/-- When its words have the property `W`, the declaration is written as its nodes ask. -/
def Decl.Spelled (W : Word → Prop) (mode : Mode) (scope : Scope) (decl : Decl) : Prop :=
  AllWords W (decl.nodes scope) → GivesWriting (decl.steps mode scope) (Block W (decl.nodes scope))

variable {mode}

theorem blockSteps_spelled {body : List Stmt} (h : ∀ statement ∈ body, statement.Spelled W mode)
    (hwords : AllWords W (blockNodes body)) :
    GivesWriting (blockSteps mode body) (Block W (blockNodes body)) := by
  induction body with
  | nil => exact Emits.pure (.nil rfl)
  | cons statement rest ih =>
    obtain ⟨hstatement, hrest⟩ := List.forall_mem_cons.mp h
    rw [blockNodes, allWords_append] at hwords
    rw [blockSteps, blockNodes]
    refine (hstatement hwords.1).bind fun first hfirst => (ih hrest hwords.2).bind fun others hothers => ?_
    exact Emits.pure (hfirst.block.append hothers)

theorem elseSteps_spelled {elseBranch : Option Stmt}
    (h : ∀ statement, elseBranch = some statement → statement.Spelled W mode)
    (hwords : AllWords W (elseNodes elseBranch)) :
    GivesWriting (elseSteps mode elseBranch) (Closes W (elseNodes elseBranch)) := by
  cases elseBranch with
  | none => exact Emits.pure fun _ _ => .close
  | some statement =>
    rw [elseSteps_some, elseNodes]
    exact (h statement rfl hwords).bind fun steps hsteps => Emits.pure hsteps.chained

theorem switchSteps_spelled {cases : List SwitchCase}
    (h : ∀ branch ∈ cases, ∀ statement ∈ branch.body, statement.Spelled W mode)
    (hwords : AllWords W (branchNodes cases)) :
    GivesWriting (switchSteps mode cases) (Block W (branchNodes cases)) := by
  induction cases with
  | nil => exact Emits.pure (.nil rfl)
  | cons branch rest ih =>
    obtain ⟨patterns, body⟩ := branch
    obtain ⟨hbody, hrest⟩ := List.forall_mem_cons.mp h
    rw [branchNodes, allWords_cons, allWords_append, allWords_append] at hwords
    obtain ⟨_, hpatternWords, hbodyWords, hrestWords⟩ := hwords
    rw [switchSteps, branchNodes]
    refine (Emits.lift (patternSteps_spelled mode hpatternWords)).bind fun labels hlabels => ?_
    refine (blockSteps_spelled hbody hbodyWords).bind fun bodySteps hbodySteps => ?_
    refine (ih hrest hrestWords).bind fun others hothers => Emits.pure (Block.skip (fun closers doubles => ?_) rfl)
    rw [owed_append, owed_append]
    exact (((hlabels closers _).append (hbodySteps _ _)).append (.cons (.line (.fixed _ rfl)) .close)).append
      (hothers closers doubles)

theorem fallbackSteps_spelled {fallback : Option (List Stmt)}
    (h : ∀ body, fallback = some body → ∀ statement ∈ body, statement.Spelled W mode)
    (hwords : AllWords W (fallbackNodes fallback)) :
    GivesWriting (fallbackSteps mode fallback) (Block W (fallbackNodes fallback)) := by
  cases fallback with
  | none => exact Emits.pure (.nil rfl)
  | some body =>
    rw [fallbackSteps, fallbackNodes]
    refine (blockSteps_spelled (h body rfl) hwords).bind fun steps hsteps => Emits.pure fun closers doubles => ?_
    exact (Lines.cons (.opening (.fixed _ rfl)) (hsteps _ doubles)).append (.cons (.line (.fixed _ rfl)) .close)

theorem memberSteps_spelled {members : List Decl} (h : ∀ member ∈ members, member.Spelled W mode .member)
    (hwords : AllWords W (memberNodes members)) :
    GivesWriting (memberSteps mode members) (Block W (memberNodes members)) := by
  induction members with
  | nil => exact Emits.pure (.nil rfl)
  | cons member rest ih =>
    obtain ⟨hmember, hrest⟩ := List.forall_mem_cons.mp h
    rw [memberNodes, allWords_append] at hwords
    rw [memberSteps, memberNodes]
    refine (hmember hwords.1).bind fun first hfirst => (ih hrest hwords.2).bind fun others hothers => ?_
    exact Emits.pure (hfirst.append hothers)

/-- **Statements and declarations are written as their nodes ask.** -/
theorem Stmt.steps_spelled (W : Word → Prop) (mode : Mode) :
    (∀ statement : Stmt, statement.Spelled W mode) ∧ ∀ scope (decl : Decl), decl.Spelled W mode scope := by
  apply Stmt.induction
  case var =>
    intro scope decl hwords
    rw [Decl.nodes, allWords_cons] at hwords
    rw [Decl.steps, Decl.nodes]
    refine (Emits.lift (decl.line_block mode scope hwords.1 hwords.2)).bind fun line hline => ?_
    exact Emits.pure (hline.skip rfl)
  case enumeration =>
    intro scope decl hwords
    rw [Decl.nodes, allWords_cons] at hwords
    exact Emits.pure ((decl.line_block mode scope hwords.1).skip rfl)
  case typeAlias =>
    intro scope decl hwords
    rw [Decl.nodes, allWords_cons] at hwords
    exact Emits.pure ((decl.line_block scope hwords.1).skip rfl)
  case nested =>
    rintro kind ⟨name, parents, members⟩ _
    rw [Decl.steps]
    exact Emits.throw trivial
  case type =>
    intro kind name parents members hmembers hwords
    rw [Decl.nodes, allWords_cons] at hwords
    rw [Decl.steps, Decl.nodes]
    refine (memberSteps_spelled hmembers hwords.2).bind fun steps hsteps => ?_
    refine Emits.pure (.skip (fun closers doubles => ?_) rfl)
    have hheader := TypeDecl.header_phrase (p := ⟨closers, owed (memberNodes members) doubles⟩) kind hwords.1
    have hstart := (Lines.opening hheader).cons (TypeDecl.memberwise_block kind ⟨name, parents, members⟩ _ _)
    exact (hstart.append (hsteps _ doubles)).append .close
  case function =>
    intro scope name parameters returnType body isStatic hbody hwords
    rw [Decl.nodes, allWords_cons, allWords_append] at hwords
    obtain ⟨hown, hparameters, hbodyWords⟩ := hwords
    rw [Decl.steps, Decl.nodes]
    refine (Emits.lift (Gives.unknown _)).bind fun _ _ => ?_
    refine (Emits.lift (ParameterBag.parameterSteps_block mode hparameters)).bind fun taken htaken => ?_
    refine (blockSteps_spelled hbody hbodyWords).bind fun steps hsteps => ?_
    refine Emits.pure (.skip (fun closers doubles => ?_) rfl)
    rw [owed_append]
    have hstart := (Lines.opening (FunctionDecl.header_phrase scope hown)).cons
      (htaken ('}' :: closers) (owed (blockNodes body) doubles))
    exact (hstart.append (hsteps _ doubles)).append .close
  case decl =>
    intro declared hdeclared hwords
    rw [Stmt.nodes, allWords_cons] at hwords
    rw [Stmt.steps]
    exact (hdeclared hwords.2).imp fun _ hsteps => .of_block (hsteps.skip rfl) rfl
  case expr =>
    intro value hwords
    rw [Stmt.nodes, allWords_cons] at hwords
    rw [Stmt.steps]
    refine (Emits.lift (value.text_spelled W mode hwords.2)).bind fun text htext => ?_
    refine Emits.pure (.of_block (.skip (.line fun closers doubles => ?_) rfl) rfl)
    exact (htext closers doubles).thenFixed rfl
  case block =>
    intro body hbody hwords
    rw [Stmt.nodes, allWords_cons] at hwords
    rw [Stmt.steps]
    exact (blockSteps_spelled hbody hwords.2).imp fun _ hsteps => .of_block (hsteps.skip rfl) rfl
  case ifThen =>
    intro condition thenBranch elseBranch hthen helse hwords
    rw [Stmt.nodes, allWords_cons, allWords_append, allWords_append] at hwords
    obtain ⟨_, hconditionWords, hthenWords, helseWords⟩ := hwords
    rw [Stmt.steps]
    refine (Emits.lift (Expr.conditionText_spelled mode hconditionWords)).bind fun test htest => ?_
    refine (blockSteps_spelled hthen hthenWords).bind fun thenSteps hthenSteps => ?_
    refine (elseSteps_spelled helse helseWords).bind fun rest hrest => Emits.pure ?_
    have hheader : Spells W condition.nodes ("if (" ++ test ++ ")") := fun _ doubles =>
      ((Phrase.fixed _ rfl).append (htest _ doubles)).thenFixed rfl
    refine ⟨.skip (fun closers doubles => ?_) rfl, fun closers doubles => ?_⟩
    · rw [owed_append, owed_append]
      exact (Lines.cons (.opening (hheader closers _)) (hthenSteps _ _)).append (hrest closers doubles)
    · -- In the other branch of a conditional the header goes on in the line of the closing brace.
      rw [Stmt.nodes, owed_skip rfl, owed_append, owed_append]
      exact Lines.cons (.reopening ((Phrase.fixed _ rfl).append (hheader closers _)))
        ((hthenSteps _ _).append (hrest closers doubles))
  case ifLet =>
    intro name value thenBranch elseBranch hthen helse hwords
    rw [Stmt.nodes, allWords_cons, allWords_append, allWords_append] at hwords
    obtain ⟨hown, hvalueWords, hthenWords, helseWords⟩ := hwords
    have hname : W (.name name) := hown _ List.mem_cons_self
    rw [Stmt.steps]
    refine (unwrap_spelled mode hname hvalueWords).bind fun unwrapping hunwrapping => ?_
    refine (blockSteps_spelled hthen hthenWords).bind fun thenSteps hthenSteps => ?_
    refine (elseSteps_spelled helse helseWords).bind fun rest hrest => ?_
    refine Emits.pure (.of_block (.skip (fun closers doubles => ?_) rfl) rfl)
    rw [owed_append, owed_append]
    obtain ⟨between, hbefore, hsubject⟩ := hunwrapping.value closers
      (owed (blockNodes thenBranch) (owed (elseNodes elseBranch) doubles))
    refine ((hbefore.append (.cons (.opening ?_) (hunwrapping.binding _ _))).append (hthenSteps _ _)).append
      (hrest closers doubles)
    exact ((Phrase.fixed _ rfl).append (hsubject _)).thenFixed rfl
  case guard =>
    intro condition body hbody hwords
    rw [Stmt.nodes, allWords_cons, allWords_append] at hwords
    rw [Stmt.steps]
    refine (Emits.lift (condition.text_spelled W mode hwords.2.1)).bind fun test htest => ?_
    refine (blockSteps_spelled hbody hwords.2.2).bind fun steps hsteps => ?_
    refine Emits.pure (.of_block (.skip (fun closers doubles => ?_) rfl) rfl)
    rw [owed_append]
    refine (Lines.cons (.opening ?_) (hsteps _ doubles)).append .close
    exact ((Phrase.fixed _ rfl).append (htest _ _)).thenFixed rfl
  case guardLet =>
    intro name value body hbody hwords
    rw [Stmt.nodes, allWords_cons, allWords_append] at hwords
    obtain ⟨hown, hvalueWords, hbodyWords⟩ := hwords
    have hname : W (.name name) := hown _ List.mem_cons_self
    rw [Stmt.steps]
    refine (unwrap_spelled mode hname hvalueWords).bind fun unwrapping hunwrapping => ?_
    refine (blockSteps_spelled hbody hbodyWords).bind fun steps hsteps => ?_
    refine Emits.pure (.of_block (.skip (fun closers doubles => ?_) rfl) rfl)
    rw [owed_append]
    obtain ⟨between, hbefore, hsubject⟩ := hunwrapping.value closers (owed (blockNodes body) doubles)
    have hheader : Phrase W ⟨closers, between⟩ ⟨closers, owed (blockNodes body) doubles⟩
        ("if (__isNil(" ++ unwrapping.subject ++ "))") :=
      ((Phrase.fixed _ rfl).append (hsubject _)).thenFixed rfl
    have hleave : Lines W ⟨'}' :: closers, doubles⟩ ⟨'}' :: closers, doubles⟩
        (if endsInExit body then [] else [.line "return;"]) := by
      split
      · exact .nil
      · exact .line (.fixed _ rfl)
    exact ((hbefore.append (.cons (.opening hheader) (hsteps _ doubles))).append hleave).append
      (.cons .close (hunwrapping.binding closers doubles))
  case switch =>
    intro subject cases fallback hcases hfallback hwords
    rw [Stmt.nodes, allWords_cons, allWords_append, allWords_append] at hwords
    obtain ⟨_, hsubjectWords, hcaseWords, hfallbackWords⟩ := hwords
    rw [Stmt.steps]
    refine (Emits.lift (Expr.conditionText_spelled mode hsubjectWords)).bind fun text htext => ?_
    refine (switchSteps_spelled hcases hcaseWords).bind fun caseSteps hcaseSteps => ?_
    refine (fallbackSteps_spelled hfallback hfallbackWords).bind fun fallbackSteps hfallbackSteps => ?_
    refine Emits.pure (.of_block (.skip (fun closers doubles => ?_) rfl) rfl)
    rw [owed_append, owed_append]
    refine ((Lines.cons (.opening ?_) (hcaseSteps _ _)).append (hfallbackSteps _ doubles)).append .close
    exact ((Phrase.fixed _ rfl).append (htext _ _)).thenFixed rfl
  case forIn =>
    intro counter sequence body hbody hwords
    rw [Stmt.nodes, allWords_cons, allWords_append] at hwords
    have hcounter : W (.name counter) := hwords.1 _ List.mem_cons_self
    rw [Stmt.steps]
    refine (loopSteps_spelled mode hcounter hwords.2.1).bind fun header hheader => ?_
    refine (blockSteps_spelled hbody hwords.2.2).bind fun steps hsteps => ?_
    refine Emits.pure (.of_block (.skip (fun closers doubles => ?_) rfl) rfl)
    rw [owed_append]
    exact ((hheader closers _).append (hsteps _ doubles)).append .close
  case whileLoop =>
    intro condition body hbody hwords
    rw [Stmt.nodes, allWords_cons, allWords_append] at hwords
    rw [Stmt.steps]
    refine (Emits.lift (Expr.conditionText_spelled mode hwords.2.1)).bind fun test htest => ?_
    refine (blockSteps_spelled hbody hwords.2.2).bind fun steps hsteps => ?_
    refine Emits.pure (.of_block (.skip (fun closers doubles => ?_) rfl) rfl)
    rw [owed_append]
    refine (Lines.cons (.opening ?_) (hsteps _ doubles)).append .close
    exact ((Phrase.fixed _ rfl).append (htest _ _)).thenFixed rfl
  case repeatWhile =>
    intro body condition hbody hwords
    rw [Stmt.nodes, allWords_cons, allWords_append] at hwords
    rw [Stmt.steps]
    refine (blockSteps_spelled hbody hwords.2.1).bind fun steps hsteps => ?_
    refine (Emits.lift (Expr.conditionText_spelled mode hwords.2.2)).bind fun test htest => ?_
    refine Emits.pure (.of_block (.skip (fun closers doubles => ?_) rfl) rfl)
    rw [owed_append]
    refine (Lines.cons (.opening (.fixed _ rfl)) (hsteps _ _)).append (.closing ?_)
    exact ((Phrase.fixed _ rfl).append (htest _ doubles)).thenFixed rfl
  case returns =>
    intro value hwords
    cases value with
    | none => exact Emits.pure (.of_block (.skip (.line fun _ _ => .fixed _ rfl) rfl) rfl)
    | some value =>
      rw [Stmt.nodes, Expr.optionNodes, Option.toList, List.flatMap_singleton, allWords_cons] at hwords
      rw [Stmt.steps]
      refine (Emits.lift (value.text_spelled W mode hwords.2)).bind fun text htext => Emits.pure (.of_block ?_ rfl)
      rw [Stmt.nodes, Expr.optionNodes, Option.toList, List.flatMap_singleton]
      refine .skip (.line fun closers doubles => ?_) rfl
      exact ((Phrase.fixed _ rfl).append (htext closers doubles)).thenFixed rfl
  case breaks => exact fun _ => Emits.pure (.of_block (.skip (.line fun _ _ => .fixed _ rfl) rfl) rfl)
  case continues => exact fun _ => Emits.pure (.of_block (.skip (.line fun _ _ => .fixed _ rfl) rfl) rfl)
  case blank => exact fun _ => Emits.pure (.of_block (.skip (.line fun _ _ => .fixed _ rfl) rfl) rfl)
  case doCatch =>
    intro body binding handler hbody hhandler hwords
    rw [Stmt.nodes, allWords_cons, allWords_append] at hwords
    rw [Stmt.steps]
    refine (blockSteps_spelled hbody hwords.2.1).bind fun steps hsteps => ?_
    refine (blockSteps_spelled hhandler hwords.2.2).bind fun handlerSteps hhandlerSteps => ?_
    refine Emits.pure (.of_block (.skip (fun closers doubles => ?_) rfl) rfl)
    rw [owed_append]
    exact (((Lines.cons (.opening (.fixed _ rfl)) (hsteps _ _)).append (catchSteps_lines mode)).append
      (hhandlerSteps _ doubles)).append .close
  case throws =>
    intro value hwords
    rw [Stmt.nodes, allWords_cons] at hwords
    rw [Stmt.steps]
    refine (Emits.lift (value.text_spelled W mode hwords.2)).bind fun text htext => ?_
    refine Emits.pure (.of_block (.skip (.line fun closers doubles => ?_) rfl) rfl)
    exact ((Phrase.fixed _ rfl).append (htext closers doubles)).thenFixed rfl

/-- **The text of a statement is a phrase.**  It closes every bracket it opens and writes the Double literals of
the statement. -/
theorem Stmt.lower_phrase {mode : Mode} {statement : Stmt} {text : String}
    (hwords : ∀ word ∈ statement.words, W word) (h : statement.lower mode = .ok text) : Phrase W ⟨[], statement.doubles⟩ ⟨[], []⟩ text := by
  obtain ⟨steps, drawn, hsteps, htext⟩ := Stmt.lower_eq_layoutAt h
  have hwritten := ((Stmt.steps_spelled W mode).1 statement hwords 0).of_eq_ok hsteps
  have hphrase := hwritten.block [] [] 0
  rw [owed, List.append_nil] at hphrase
  rw [htext]
  exact hphrase

end ScriptLowering
