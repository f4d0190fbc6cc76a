import ScriptLowering.Proofs.Layout
import ScriptLowering.Proofs.Phrase

/-!
# Steps as phrases

Steps are laid out as lines, and the lines of a part of a script are a phrase of its nodes at any depth.

* `Lines` — steps that are a phrase between two states, whatever the depth;
* `Block` — steps that write the Double literals of some nodes and close every brace they open;
* `CountedLoop.upper_once` — the upper bound of a loop is written once;
* `Mode.variableText_spells`, `Mode.bindRaw_block` — bindings in both modes;
* `VariableDecl.line_block`, `EnumDecl.line_block`, `FunctionDecl.header_phrase` — the parts of declarations;
* `ParameterBag.parameterSteps_block` — the lines that take parameters out of the bag.
-/

namespace ScriptLowering

variable {W : Word → Prop}

/-! ### Laid-out steps -/

/-- The steps take the one state to the other, whatever the depth. -/
def Lines (W : Word → Prop) (p q : Pending) (steps : List Step) : Prop :=
  ∀ depth, Phrase W p q (Step.layoutAt depth steps)

/-- The blanks in front of a line. -/
theorem Text.margin_phrase {p : Pending} (depth : Nat) : Phrase W p p (Text.margin depth) := by
  have hscan : ∀ n, Lexer.scan ⟨.code, p.closers⟩ (List.replicate n ' ') = some ⟨.code, p.closers⟩ := by
    intro n
    induction n with
    | zero => rfl
    | succ n ih => exact ih
  refine Phrase.fixed _ (closersAfter_eq_some.mpr ⟨hscan (2 * depth), List.all_eq_true.mpr fun c hc => ?_⟩)
  rw [(List.mem_replicate.mp hc).2]
  rfl

namespace Lines

variable {p q r : Pending} {a : List Char} {before after : List String}

theorem nil : Lines W p p [] := fun _ => Phrase.empty

theorem append {first second : List Step} (hfirst : Lines W p q first) (hsecond : Lines W q r second) :
    Lines W p r (first ++ second) := by
  intro depth
  rw [Step.layoutAt_append]
  exact (hfirst depth).append (hsecond _)

theorem cons {step : Step} {rest : List Step} (hstep : Lines W p q [step]) (hrest : Lines W q r rest) :
    Lines W p r (step :: rest) :=
  hstep.append hrest

/-- A step is the line it writes. -/
theorem single {step : Step} {text : String} (hwritten : step.written = some text) (h : Phrase W p q text) :
    Lines W p q [step] := by
  intro depth
  rw [Step.layoutAt, Step.layoutAt, String.append_empty, Step.textAt, hwritten]
  exact ((Text.margin_phrase _).append h).thenFixed rfl

theorem line {text : String} (h : Phrase W p q text) : Lines W p q [.line text] := single rfl h

theorem opening {header : String} (h : Phrase W ⟨a, before⟩ ⟨a, after⟩ header) :
    Lines W ⟨a, before⟩ ⟨'}' :: a, after⟩ [.opening header] :=
  single rfl (h.thenFixed rfl)

theorem reopening {header : String} (h : Phrase W ⟨a, before⟩ ⟨a, after⟩ header) :
    Lines W ⟨'}' :: a, before⟩ ⟨'}' :: a, after⟩ [.reopening header] :=
  single rfl (((Phrase.fixed _ rfl).append h).thenFixed rfl)

theorem closing {trailer : String} (h : Phrase W ⟨a, before⟩ ⟨a, after⟩ trailer) :
    Lines W ⟨'}' :: a, before⟩ ⟨a, after⟩ [.closing trailer] :=
  single rfl ((Phrase.fixed _ rfl).append h)

theorem close {doubles : List String} : Lines W ⟨'}' :: a, doubles⟩ ⟨a, doubles⟩ [.closing ""] :=
  closing Phrase.empty

theorem indent : Lines W p p [.indent] := fun _ => Phrase.empty

theorem outdent : Lines W p p [.outdent] := fun _ => Phrase.empty

end Lines

/-! ### Temporaries -/

theorem Temporary.name_phrase {p : Pending} (temporary : Temporary) : Phrase W p p temporary.name := by
  have hstem : Phrase W p p temporary.stem.text := by
    cases temporary.stem <;> exact Phrase.fixed _ rfl
  exact ((Phrase.fixed _ rfl).append hstem).append (Phrase.nat temporary.number)

theorem Lines.keep {p q : Pending} {temporary : Temporary} {value : String} (h : Phrase W p q value) :
    Lines W p q [.keep temporary value] :=
  single rfl (((((Phrase.fixed _ rfl).append temporary.name_phrase).thenFixed rfl).append h).thenFixed rfl)

/-- The upper bound stands either where the loop keeps it or where it compares, and not in both places. -/
theorem CountedLoop.upper_once {p q : Pending} {loop : CountedLoop} (hupper : Phrase W p q loop.upper) :
    (Phrase W p p loop.keeping ∧ Phrase W p q loop.limit) ∨
      (Phrase W p q loop.keeping ∧ Phrase W q q loop.limit) := by
  rw [CountedLoop.keeping, CountedLoop.limit]
  cases loop.bound with
  | none => exact .inl ⟨Phrase.empty, hupper⟩
  | some temporary =>
    refine .inr ⟨?_, temporary.name_phrase⟩
    exact (((Phrase.fixed _ rfl).append temporary.name_phrase).thenFixed rfl).append hupper

theorem CountedLoop.header_phrase {a : List Char} {before between after : List String} {loop : CountedLoop}
    (hcounter : ∀ {p}, Phrase W p p loop.counter)
    (hlower : Phrase W ⟨')' :: a, before⟩ ⟨')' :: a, between⟩ loop.lower)
    (hupper : Phrase W ⟨')' :: a, between⟩ ⟨')' :: a, after⟩ loop.upper) :
    Phrase W ⟨a, before⟩ ⟨a, after⟩ loop.header := by
  have hcomparison : ∀ {p}, Phrase W p p loop.comparison := Phrase.either (.fixed _ rfl) (.fixed _ rfl)
  have hstart : Phrase W ⟨a, before⟩ ⟨')' :: a, between⟩ ("for (let " ++ loop.counter ++ " = " ++ loop.lower) :=
    (((Phrase.fixed _ rfl).append hcounter).thenFixed rfl).append hlower
  have hlimit : Phrase W ⟨a, before⟩ ⟨')' :: a, after⟩ ("for (let " ++ loop.counter ++ " = " ++ loop.lower ++
      loop.keeping ++ "; " ++ loop.counter ++ loop.comparison ++ loop.limit) := by
    obtain ⟨hkeeping, hlimit⟩ | ⟨hkeeping, hlimit⟩ := CountedLoop.upper_once hupper
    · exact ((((hstart.append hkeeping).thenFixed rfl).append hcounter).append hcomparison).append hlimit
    · exact ((((hstart.append hkeeping).thenFixed rfl).append hcounter).append hcomparison).append hlimit
  exact ((hlimit.thenFixed rfl).append hcounter).thenFixed rfl

/-! ### Bindings -/

/-- The steps write the Double literals of the nodes and close every brace they open. -/
def Block (W : Word → Prop) (nodes : List Node) (steps : List Step) : Prop :=
  ∀ closers doubles, Lines W ⟨closers, owed nodes doubles⟩ ⟨closers, doubles⟩ steps

namespace Block

theorem nil {nodes : List Node} (h : nodes.flatMap Node.doubles = []) : Block W nodes [] := by
  intro closers doubles
  rw [owed, h]
  exact Lines.nil

theorem line {nodes : List Node} {text : String} (h : Spells W nodes text) : Block W nodes [.line text] :=
  fun closers doubles => Lines.line (h closers doubles)

/-- A node that is no Double literal adds nothing. -/
theorem skip {node : Node} {nodes : List Node} {steps : List Step} (h : Block W nodes steps)
    (hnode : node.doubles = []) : Block W (node :: nodes) steps := by
  intro closers doubles
  rw [owed_skip hnode]
  exact h closers doubles

theorem append {first second : List Node} {s t : List Step} (hfirst : Block W first s) (hsecond : Block W second t) :
    Block W (first ++ second) (s ++ t) := by
  intro closers doubles
  rw [owed_append]
  exact (hfirst closers _).append (hsecond closers doubles)

theorem ofOption {text : Option String} (h : ∀ line, text = some line → Spells W [] line) :
    Block W [] (Step.ofOption text) := by
  cases text with
  | none => exact nil rfl
  | some line => exact .line (h line rfl)

end Block

namespace Mode

theorem recordText_spells {nodes : List Node} {fields : List String} (h : SpellsEach W nodes fields) :
    Spells W nodes (recordText fields) :=
  fun _ doubles => ((Phrase.fixed _ rfl).append (h.join _ doubles)).thenFixed rfl

/-- A type tag holds no Double literal. -/
theorem typeField_spells {tag : String} (h : Spells W [] tag) : Spells W [] ("type: " ++ Quoted.literal tag) :=
  fun closers doubles => (Phrase.fixed _ rfl).append (.quoted (h closers doubles))

theorem constantRecord_spells {value tag : String} (hvalue : Spells W [] value) (htag : Spells W [] tag) :
    Spells W [] (constantRecord value tag) := by
  refine recordText_spells (SpellsEach.thenSilent (.nil rfl) ?_)
  rw [List.forall_mem_cons, List.forall_mem_cons, List.forall_mem_singleton]
  exact ⟨fun closers doubles => (Phrase.fixed _ rfl).append (hvalue closers doubles), typeField_spells htag,
    fun _ _ => Phrase.fixed _ rfl⟩

/-- The line that binds a name holds no Double literal. -/
theorem bindRaw_block {name raw tag : String} (mode : Mode) (hname : Spells W [] name) (hraw : Spells W [] raw)
    (htag : Spells W [] tag) : Block W [] (Step.ofOption (mode.bindRaw name raw tag)) := by
  refine Block.ofOption fun line hline closers doubles => ?_
  cases mode with
  | native =>
    rw [bindRaw] at hline
    split at hline
    · exact nomatch hline
    · rw [← Option.some.inj hline]
      exact ((((Phrase.fixed _ rfl).append (hname closers _)).thenFixed rfl).append
        (hraw closers doubles)).thenFixed rfl
  | managed =>
    rw [← Option.some.inj hline]
    exact ((((Phrase.fixed _ rfl).append (hname closers _)).thenFixed rfl).append
      (constantRecord_spells hraw htag closers doubles)).thenFixed rfl

theorem annotationText_phrase {p : Pending} {type : Option SourceType}
    (h : ∀ word ∈ SourceType.optionWords type, W word) : Phrase W p p (annotationText type) := by
  cases type with
  | none => exact Phrase.empty
  | some type =>
    rw [SourceType.optionWords, Option.toList, List.flatMap_singleton] at h
    exact (Phrase.fixed _ rfl).append (SourceType.text_phrase h)

theorem initialText_spells {nodes : List Node} {initializer : Option String}
    (h : SpellsEach W nodes initializer.toList) : Spells W nodes (initialText initializer) := by
  have hvalue := h.join
  cases initializer with
  | none => exact hvalue
  | some value => exact fun closers doubles => (Phrase.fixed _ rfl).append (hvalue closers doubles)

theorem recordFields_spells {nodes : List Node} {binding : Binding}
    (h : SpellsEach W nodes binding.initializer.toList)
    (htype : ∀ word ∈ SourceType.optionWords binding.annotation, W word) :
    SpellsEach W nodes (recordFields binding) := by
  have hvalue : Spells W nodes ("value: " ++ binding.initializer.getD "null") := by
    intro closers doubles
    have hvalue := h.join closers doubles
    cases hinitializer : binding.initializer with
    | none =>
      rw [hinitializer] at h
      rw [owed, SpellsEach.of_nil h]
      exact (Phrase.fixed _ rfl).thenFixed rfl
    | some value =>
      rw [hinitializer] at hvalue
      exact (Phrase.fixed _ rfl).append hvalue
  have htype : Spells W [] ("type: " ++ Quoted.literal (SourceType.textOf binding.annotation)) :=
    typeField_spells fun _ _ => SourceType.textOf_phrase htype
  have hflag : ∀ {c : Prop} [Decidable c] {flag : String}, Spells W [] flag →
      ∀ text ∈ (if c then [flag] else []), Spells W [] text := by
    intro c _ flag hflag text htext
    split at htext
    · rwa [List.mem_singleton.mp htext]
    · exact absurd htext List.not_mem_nil
  have hfields : SpellsEach W nodes (["value: " ++ binding.initializer.getD "null"] ++
      ["type: " ++ Quoted.literal (SourceType.textOf binding.annotation)]) :=
    (SpellsEach.single hvalue).thenSilent (List.forall_mem_singleton.mpr htype)
  exact ((hfields.thenSilent (hflag fun _ _ => Phrase.fixed _ rfl)).thenSilent
    (hflag fun _ _ => Phrase.fixed _ rfl)).thenSilent (hflag fun _ _ => Phrase.fixed _ rfl)

end Mode

theorem Binding.lead_phrase {p : Pending} (binding : Binding) : Phrase W p p binding.lead := by
  rw [Binding.lead]
  split
  · exact Phrase.fixed _ rfl
  · exact Phrase.fixed _ rfl
  · exact Phrase.either (.fixed _ rfl) .empty

namespace Mode

/-- A variable holds the Double literals of its initial value, once. -/
theorem variableText_spells {nodes : List Node} {binding : Binding} (mode : Mode) (hname : Spells W [] binding.name)
    (htype : ∀ word ∈ SourceType.optionWords binding.annotation, W word)
    (hinitializer : SpellsEach W nodes binding.initializer.toList) :
    Spells W nodes (mode.variableText binding) := by
  intro closers doubles
  have hlead := binding.lead_phrase.append (hname closers (owed nodes doubles))
  cases mode with
  | native =>
    exact ((hlead.append (annotationText_phrase htype)).append
      (initialText_spells hinitializer closers doubles)).thenFixed rfl
  | managed =>
    exact ((hlead.thenFixed rfl).append
      (recordText_spells (recordFields_spells hinitializer htype) closers doubles)).thenFixed rfl

theorem enumerationText_spells {binding : Binding} {value : String} (mode : Mode) (hname : Spells W [] binding.name)
    (hinitializer : binding.initializer = some value) (hvalue : Spells W [] value) :
    Spells W [] (mode.enumerationText binding) := by
  intro closers doubles
  have hlead := binding.lead_phrase.append (hname closers doubles)
  unfold enumerationText
  rw [hinitializer]
  cases mode with
  | native => exact ((hlead.thenFixed rfl).append (hvalue closers doubles)).thenFixed rfl
  | managed =>
    have htag : Spells W [] "enum" := fun _ _ => Phrase.fixed _ rfl
    exact ((hlead.thenFixed rfl).append (constantRecord_spells hvalue htag closers doubles)).thenFixed rfl

end Mode

/-! ### Parts of declarations -/

theorem Identifier.safe_spells {name : String} (h : W (.name name)) : Spells W [] (Identifier.safe name) :=
  fun _ _ => Identifier.safe_phrase h

theorem Expr.optionText_spelled {value : Option Expr} (mode : Mode) (hwords : AllWords W (optionNodes value)) :
    Gives (value.mapM (·.text mode)) fun text => SpellsEach W (optionNodes value) text.toList := by
  cases value with
  | none => exact Outcome.pure (.nil rfl)
  | some value =>
    rw [optionNodes, Option.toList, List.flatMap_singleton] at hwords ⊢
    exact (value.text_spelled W mode hwords).bind fun _ htext => Outcome.pure (.single htext)

theorem VariableDecl.line_block {decl : VariableDecl} (mode : Mode) (scope : Scope)
    (hown : ∀ word ∈ (Decl.variable decl).ownWords, W word)
    (hwords : AllWords W (Expr.optionNodes decl.initializer)) :
    Gives (decl.line mode scope) fun step => Block W (Expr.optionNodes decl.initializer) [step] := by
  obtain ⟨hname, htype⟩ := List.forall_mem_cons.mp hown
  rw [VariableDecl.line]
  refine (Expr.optionText_spelled mode hwords).bind fun initializer hinitializer => Outcome.pure (Block.line ?_)
  exact mode.variableText_spells (Identifier.safe_spells hname) htype hinitializer

theorem EnumDecl.valueText_spells {decl : EnumDecl} (h : ∀ name ∈ decl.cases, W (.name name)) :
    Spells W [] decl.valueText := by
  rw [EnumDecl.valueText]
  split
  · exact fun _ _ => Phrase.fixed _ rfl
  · next cases _ =>
    have hcases : SpellsEach W []
        (decl.cases.map fun name => Identifier.safe name ++ ": " ++ Quoted.literal name) := by
      refine SpellsEach.thenSilent (.nil rfl) fun text htext => ?_
      obtain ⟨name, hname, rfl⟩ := List.mem_map.mp htext
      intro closers doubles
      have hword : Phrase W ⟨closers, doubles⟩ ⟨closers, doubles⟩ name := Phrase.name (h name hname)
      exact ((Identifier.safe_phrase (h name hname)).thenFixed rfl).append hword.quoted
    exact fun closers doubles => ((Phrase.fixed _ rfl).append (hcases.join _ doubles)).thenFixed rfl

theorem EnumDecl.line_block {decl : EnumDecl} (mode : Mode) (scope : Scope)
    (h : ∀ word ∈ (Decl.enumeration decl).ownWords, W word) : Block W [] [decl.line mode scope] := by
  rw [Decl.ownWords, List.map_cons, List.forall_mem_cons] at h
  have hcases : ∀ name ∈ decl.cases, W (.name name) := fun name hname => h.2 _ (List.mem_map_of_mem hname)
  exact Block.line (mode.enumerationText_spells (Identifier.safe_spells h.1) rfl (valueText_spells hcases))

theorem AliasDecl.line_block {decl : AliasDecl} (scope : Scope)
    (h : ∀ word ∈ (Decl.typeAlias decl).ownWords, W word) : Block W [] [decl.line scope] := by
  obtain ⟨hname, htarget⟩ := List.forall_mem_cons.mp h
  refine Block.line fun closers doubles => ?_
  have hquoted : Phrase W ⟨closers, doubles⟩ ⟨closers, doubles⟩ decl.target.text := SourceType.text_phrase htarget
  cases scope with
  | block =>
    exact ((((Phrase.fixed _ rfl).append (Identifier.safe_phrase hname)).thenFixed rfl).append
      hquoted.quoted).thenFixed rfl
  | member =>
    exact ((((Phrase.fixed _ rfl).append (Identifier.safe_phrase hname)).thenFixed rfl).append
      hquoted.quoted).thenFixed rfl

theorem TypeDecl.header_phrase {p : Pending} {decl : TypeDecl} (kind : TypeKind)
    (h : ∀ word ∈ (Decl.type kind decl).ownWords, W word) : Phrase W p p (decl.header kind) := by
  have hname : W (.name decl.name) := h _ List.mem_cons_self
  unfold TypeDecl.header
  refine ((Phrase.fixed _ rfl).append (Identifier.safe_phrase hname)).append ?_
  split
  · next parent rest hparents =>
    have hparent : W (.name parent) := by
      refine h _ (List.mem_cons_of_mem _ (List.mem_map_of_mem ?_))
      rw [hparents]
      exact List.mem_cons_self
    exact (Phrase.fixed _ rfl).append (Identifier.safe_phrase hparent)
  · exact Phrase.empty

/-- A constructor put in by the lowering holds no Double literal. -/
theorem TypeDecl.memberwise_block (kind : TypeKind) (decl : TypeDecl) : Block W [] (decl.memberwise kind) := by
  unfold TypeDecl.memberwise
  split
  · intro closers doubles
    refine .cons (.opening (((Phrase.fixed _ rfl).append (.fixed _ rfl)).thenFixed rfl)) ?_
    exact .cons (.line (((Phrase.fixed _ rfl).append (.fixed _ rfl)).thenFixed rfl)) .close
  · exact Block.nil rfl

theorem ParameterBag.formalText_phrase {p : Pending} (parameters : List Parameter) :
    Phrase W p p (formalText parameters) :=
  Phrase.either (.fixed _ rfl) (((Phrase.fixed _ rfl).append (.fixed _ rfl)).thenFixed rfl)

theorem FunctionDecl.header_phrase {p : Pending} {decl : FunctionDecl} (scope : Scope)
    (h : ∀ word ∈ (Decl.function decl).ownWords, W word) : Phrase W p p (decl.header scope) := by
  obtain ⟨hname, hreturn⟩ := List.forall_mem_cons.mp h
  have hformal : Phrase W p p (ParameterBag.formalText decl.parameters) := ParameterBag.formalText_phrase _
  refine Phrase.either ((Phrase.fixed _ rfl).append hformal) ?_
  refine (Phrase.append (Phrase.append ?_ (Identifier.safe_phrase hname)) hformal).append
    (Mode.annotationText_phrase hreturn)
  cases scope with
  | block => exact Phrase.fixed _ rfl
  | member => exact Phrase.either (.fixed _ rfl) .empty

/-! ### Parameters -/

namespace ParameterBag

theorem fallbackText_spelled {fallback : Option Expr} (mode : Mode)
    (hwords : AllWords W (Expr.optionNodes fallback)) :
    Gives (fallbackText mode fallback) (Spells W (Expr.optionNodes fallback)) := by
  cases fallback with
  | none => exact Outcome.pure (Spells.empty rfl)
  | some value =>
    rw [Expr.optionNodes, Option.toList, List.flatMap_singleton] at hwords ⊢
    refine (value.text_spelled W mode hwords).bind fun text htext => Outcome.pure fun closers doubles => ?_
    exact (Phrase.fixed _ rfl).append (htext closers doubles)

variable {parameter : Parameter}

theorem effectiveLabel_word {label : String} (h : ∀ word ∈ parameter.ownWords, W word)
    (hlabel : effectiveLabel parameter = some label) : W (.name label) := by
  rw [Parameter.ownWords, List.forall_mem_cons, List.forall_mem_append] at h
  rw [effectiveLabel] at hlabel
  split at hlabel
  · next given hgiven =>
    split at hlabel
    · exact nomatch hlabel
    · rw [hgiven] at h
      rw [← Option.some.inj hlabel]
      exact h.2.1 _ List.mem_cons_self
  · rw [← Option.some.inj hlabel]
    exact h.1

theorem parameterKey_phrase {p : Pending} (index : Nat) (h : ∀ word ∈ parameter.ownWords, W word) :
    Phrase W p p (parameterKey index parameter) := by
  rw [parameterKey]
  cases hlabel : effectiveLabel parameter with
  | none => exact positionKey_phrase index
  | some label => exact Phrase.name (effectiveLabel_word h hlabel)

theorem entryText_phrase {p : Pending} {key raw : String} (hkey : Phrase W p p key) (hraw : Phrase W p p raw) :
    Phrase W p p (entryText key raw) :=
  Phrase.either hkey ((hkey.thenFixed rfl).append hraw)

/-- The entries hold the values that the parameters fall back on; the lines that bind them hold none. -/
theorem unpack_spelled (mode : Mode) (index : Nat) {parameters : List Parameter}
    (hwords : AllWords W (parameters.flatMap Parameter.nodes)) :
    Gives (unpack mode index parameters)
      (fun taken => SpellsEach W (parameters.flatMap Parameter.nodes) taken.1 ∧ Block W [] taken.2) := by
  induction parameters generalizing index with
  | nil => exact Outcome.pure ⟨.nil rfl, .nil rfl⟩
  | cons parameter rest ih =>
    rw [List.flatMap_cons, allWords_append, Parameter.nodes, allWords_cons] at hwords
    obtain ⟨⟨hown, hfallback⟩, hrest⟩ := hwords
    have hname : W (.name parameter.name) := hown _ List.mem_cons_self
    have htype : ∀ word ∈ SourceType.optionWords parameter.annotation, W word := fun word hword =>
      hown word (List.mem_cons_of_mem _ (List.mem_append_right _ hword))
    rw [unpack, List.flatMap_cons, Parameter.nodes]
    split
    · next hvariadic =>
      exact (ih (index + 1) hrest).imp fun taken htaken => ⟨.skip rfl htaken.1, htaken.2⟩
    · next hvariadic =>
      rw [if_neg hvariadic] at hfallback
      refine (fallbackText_spelled mode hfallback).bind fun fallback hfallback => ?_
      refine (ih (index + 1) hrest).bind fun taken htaken => Outcome.pure ⟨.skip rfl (.cons ?_ htaken.1), ?_⟩
      · intro closers doubles
        exact (entryText_phrase (parameterKey_phrase index hown)
          (mode.rawName_phrase (Identifier.safe_phrase hname))).append (hfallback closers doubles)
      · have hbinding : Block W [] (Step.ofOption _) := mode.bindRaw_block (Identifier.safe_spells hname)
          (fun _ _ => mode.rawName_phrase (Identifier.safe_phrase hname))
          (fun _ _ => SourceType.textOf_phrase htype)
        exact hbinding.append htaken.2

theorem tailSteps_lines {p : Pending} {terminator : String} (threshold : Nat) (h : Phrase W p p terminator) :
    Lines W p p (tailSteps threshold terminator) := by
  refine .cons (.line (.fixed _ rfl)) (.cons (.line (.fixed _ rfl)) (.cons (.line ?_)
    (.cons (.line (.fixed _ rfl)) (.line ((Phrase.fixed _ rfl).append h)))))
  exact ((Phrase.fixed _ rfl).append (Phrase.nat threshold)).thenFixed rfl

/-- The lines that collect the values of a variadic parameter hold no Double literal. -/
theorem collectSteps_block {label : Option String} {raw : String} (threshold : Nat)
    (hlabel : ∀ text, label = some text → W (.name text)) (hraw : Spells W [] raw) :
    Block W [] (collectSteps label raw threshold) := by
  intro closers doubles
  cases label with
  | none =>
    refine ((Lines.cons (.line ?_) .indent).append (tailSteps_lines threshold (.fixed _ rfl))).append .outdent
    exact ((((Phrase.fixed _ rfl).append (hraw closers doubles)).thenFixed rfl).thenFixed rfl).thenFixed rfl
  | some label =>
    have hword : ∀ {p : Pending}, Phrase W p p label := Phrase.name (hlabel label rfl)
    have hkey : ∀ {p : Pending}, Phrase W p p (Quoted.literal label) := fun {p} =>
      Phrase.quoted (hword (p := ⟨p.closers, p.doubles⟩))
    -- The bracket that the first line opens is closed by the last one.
    have hstart : Lines W ⟨closers, doubles⟩ ⟨']' :: closers, doubles⟩ [.line ("const " ++ raw ++ " = [")] :=
      .line (((Phrase.fixed _ rfl).append (hraw closers doubles)).thenFixed rfl)
    have hlabeled : Lines W ⟨']' :: closers, doubles⟩ ⟨']' :: closers, doubles⟩
        [.line ("...(" ++ Quoted.literal label ++ " in " ++ bagName ++ " ? [" ++ bagName ++ "[" ++
          Quoted.literal label ++ "]] : []),")] := by
      have hlookup : Phrase W ⟨']' :: closers, doubles⟩ ⟨']' :: ']' :: ')' :: ']' :: closers, doubles⟩
          ("...(" ++ Quoted.literal label ++ " in " ++ bagName ++ " ? [" ++ bagName ++ "[") :=
        (((((Phrase.fixed _ rfl).append hkey).thenFixed rfl).thenFixed rfl).thenFixed rfl).thenFixed rfl
          |>.thenFixed rfl
      exact .line ((hlookup.append hkey).thenFixed rfl)
    have hentries : Lines W ⟨']' :: closers, doubles⟩ ⟨']' :: closers, doubles⟩
        [.line ("...Object.entries(" ++ bagName ++ ")")] :=
      .line (((Phrase.fixed _ rfl).thenFixed rfl).thenFixed rfl)
    refine ((hstart.cons (.cons .indent (hlabeled.cons (hentries.cons .indent)))).append
      (tailSteps_lines threshold (.fixed _ rfl))).append ?_
    exact .cons .outdent (.cons .outdent (.line (.fixed _ rfl)))

theorem variadicTag_phrase {p : Pending} {type : Option SourceType}
    (h : ∀ word ∈ SourceType.optionWords type, W word) : Phrase W p p (variadicTag type) := by
  cases type with
  | none => exact (Phrase.fixed _ rfl).thenFixed rfl
  | some element =>
    rw [SourceType.optionWords, Option.toList, List.flatMap_singleton] at h
    exact SourceType.text_phrase h

theorem variadicSteps_block (mode : Mode) (threshold : Nat) (h : ∀ word ∈ parameter.ownWords, W word) :
    Block W [] (variadicSteps mode threshold parameter) := by
  have hname : W (.name parameter.name) := h _ List.mem_cons_self
  have hraw : Spells W [] (mode.rawName (Identifier.safe parameter.name)) := fun _ _ =>
    mode.rawName_phrase (Identifier.safe_phrase hname)
  have htag : Spells W [] (variadicTag parameter.annotation) := fun _ _ => variadicTag_phrase fun word hword =>
    h word (List.mem_cons_of_mem _ (List.mem_append_right _ hword))
  have hcollect := collectSteps_block threshold (fun _ hlabel => effectiveLabel_word h hlabel) hraw
  exact hcollect.append (mode.bindRaw_block (Identifier.safe_spells hname) hraw htag)

/-- **Parameters.**  Of the lines at the top of a function only the one that takes the parameters apart holds
Double literals. -/
theorem parameterSteps_block (mode : Mode) {parameters : List Parameter}
    (hwords : AllWords W (parameters.flatMap Parameter.nodes)) :
    Gives (parameterSteps mode parameters) (Block W (parameters.flatMap Parameter.nodes)) := by
  rw [parameterSteps]
  refine (unpack_spelled mode 0 hwords).bind fun taken htaken => Outcome.pure fun closers doubles => ?_
  obtain ⟨hentries, hbindings⟩ := htaken
  refine (Lines.append ?_ (hbindings closers doubles)).append ?_
  · split
    · next hempty =>
      rw [List.isEmpty_iff.mp hempty] at hentries
      exact Block.nil hentries.of_nil closers doubles
    · refine .line ?_
      exact ((((Phrase.fixed _ rfl).append (hentries.join _ doubles)).thenFixed rfl).thenFixed rfl).thenFixed rfl
  · split
    · next parameter hfound =>
      have hnode : .parameter parameter ∈ parameters.flatMap Parameter.nodes :=
        List.mem_flatMap.mpr ⟨parameter, List.mem_of_find?_eq_some hfound, List.mem_cons_self⟩
      have hown : ∀ word ∈ parameter.ownWords, W word := fun word hword =>
        hwords word (List.mem_flatMap.mpr ⟨_, hnode, hword⟩)
      exact variadicSteps_block mode _ hown closers doubles
    · exact .nil

end ParameterBag

end ScriptLowering
