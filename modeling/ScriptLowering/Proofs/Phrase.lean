import ScriptLowering.Proofs.Induction
import ScriptLowering.Proofs.Lexer
import ScriptLowering.Proofs.Node
import ScriptLowering.Proofs.Outcome

/-!
# Phrases

A grammar of what the lowering writes.  A phrase is a text between two states: the brackets still to be closed and
the Double literals still to be written, before the text and after it.

* `fixedCharacters`, `closersAfter` — the characters of the texts that the lowering writes itself, and what such a
  text does to the brackets;
* `Pending`, `Phrase` — the states and the grammar;
* `Spells`, `SpellsEach` — a text, or some texts, that write the Double literals of some nodes and leave the
  brackets as they were;
* `Expr.text_spelled` — every expression is written as a phrase.

What can be said of all scripts follows from the grammar by induction over its eight rules.
-/

namespace ScriptLowering

/-! ### The grammar -/

/-- The characters of the texts that the lowering writes itself. -/
def fixedCharacters : List Char :=
  ['\n', ' ', '!', '"', '$', '%', '&', '(', ')', '*', '+', ',', '-', '.', '/', '0', '1', ':', ';', '<', '=', '>',
    '?', 'N', 'O', '[', '\\', ']', '^', '_', '`', 'a', 'b', 'c', 'd', 'e', 'f', 'g', 'h', 'i', 'j', 'k', 'l', 'm',
    'n', 'o', 'p', 'r', 's', 't', 'u', 'v', 'w', 'x', 'y', 'z', '{', '|', '}', '~']

/-- The closing brackets waited for after a fixed text, when the lexer reads it from code to code. -/
def closersAfter (closers chars : List Char) : Option (List Char) :=
  match Lexer.scan ⟨.code, closers⟩ chars with
  | some ⟨.code, rest⟩ => if chars.all fixedCharacters.contains then some rest else none
  | _ => none

theorem closersAfter_eq_some {closers rest chars : List Char} :
    closersAfter closers chars = some rest ↔
      Lexer.scan ⟨.code, closers⟩ chars = some ⟨.code, rest⟩ ∧ chars.all fixedCharacters.contains = true := by
  rw [closersAfter]
  split
  · next other hscan =>
    rw [hscan]
    split
    · next hfixed => simp [hfixed]
    · next hfixed => simp [hfixed]
  · next hcode =>
    refine ⟨nofun, fun h => absurd h.1 (hcode rest)⟩

/-- What is still to be written: closing brackets, the innermost first, and Double literals. -/
structure Pending where
  closers : List Char
  doubles : List String

/-- A text made of words with the property `W`, from what is pending before it to what is pending after it. -/
inductive Phrase (W : Word → Prop) : Pending → Pending → String → Prop where
  /-- A text that the lowering writes itself. -/
  | fixed {a b : List Char} {doubles : List String} (chars : List Char) (h : closersAfter a chars = some b) :
      Phrase W ⟨a, doubles⟩ ⟨b, doubles⟩ (String.ofList chars)
  | append {p q r : Pending} {first second : String} (hfirst : Phrase W p q first)
      (hsecond : Phrase W q r second) : Phrase W p r (first ++ second)
  | digits {p : Pending} {chars : List Char} (h : ∀ c ∈ chars, c.isDigit = true) :
      Phrase W p p (String.ofList chars)
  | name {p : Pending} {text : String} (h : W (.name text)) : Phrase W p p text
  /-- A literal; a Double is the next one to be written. -/
  | literal {a : List Char} {doubles : List String} {value : Literal} (h : W (.literal value)) :
      Phrase W ⟨a, value.doubles ++ doubles⟩ ⟨a, doubles⟩ value.text
  /-- A text without Double literals, between double quotes. -/
  | quoted {p : Pending} {a b : List Char} {doubles : List String} {text : String}
      (h : Phrase W ⟨a, doubles⟩ ⟨b, doubles⟩ text) : Phrase W p p (Quoted.literal text)
  /-- The place of a type test, with a comment on what it tests. -/
  | typeTest {a b : List Char} {before after : List String} {subject target : String}
      (hsubject : Phrase W ⟨a, before⟩ ⟨a, after⟩ subject) (htarget : Phrase W ⟨b, after⟩ ⟨b, after⟩ target) :
      Phrase W ⟨a, before⟩ ⟨a, after⟩
        ("true /* " ++ Comment.inside subject ++ " is " ++ Comment.inside target ++ " */")
  /-- The construction of a value; the callee may lose an access at its end. -/
  | construction {a : List Char} {before between after : List String} {callee bag : String} (mode : Mode)
      (hcallee : Phrase W ⟨a, before⟩ ⟨a, between⟩ callee)
      (hbag : Phrase W ⟨a, between⟩ ⟨a, after⟩ (Expr.parenthesized bag)) :
      Phrase W ⟨a, before⟩ ⟨a, after⟩ ("new " ++ mode.constructible callee ++ Expr.parenthesized bag)

variable {W : Word → Prop}

namespace Phrase

theorem empty {p : Pending} : Phrase W p p "" := fixed [] rfl

theorem thenFixed {p : Pending} {a b : List Char} {doubles : List String} {first : String} {chars : List Char}
    (hfirst : Phrase W p ⟨a, doubles⟩ first) (h : closersAfter a chars = some b) :
    Phrase W p ⟨b, doubles⟩ (first ++ String.ofList chars) :=
  hfirst.append (fixed chars h)

theorem either {p q : Pending} {c : Prop} [Decidable c] {first second : String} (hfirst : Phrase W p q first)
    (hsecond : Phrase W p q second) : Phrase W p q (if c then first else second) := by
  split
  · exact hfirst
  · exact hsecond

theorem nat {p : Pending} (n : Nat) : Phrase W p p (toString n) := by
  rw [Nat.toString_eq_ofList_toDigits]
  exact digits fun c hc => Nat.isDigit_of_mem_toDigits (by decide) (by decide) hc

theorem int {p : Pending} (n : Int) : Phrase W p p (toString n) := by
  cases n with
  | ofNat n => exact nat n
  | negSucc n => exact (fixed ['-'] rfl).append (nat (n + 1))

theorem parenthesized {a : List Char} {before after : List String} {text : String}
    (h : Phrase W ⟨')' :: a, before⟩ ⟨')' :: a, after⟩ text) :
    Phrase W ⟨a, before⟩ ⟨a, after⟩ (Expr.parenthesized text) :=
  ((fixed _ rfl).append h).thenFixed rfl

/-- A token of an operator, with the blanks around it that keep it from reading as a part of another. -/
theorem spaced {a : List Char} {doubles : List String} {chars : List Char}
    (h : closersAfter a (' ' :: (chars ++ [' '])) = some a) :
    Phrase W ⟨a, doubles⟩ ⟨a, doubles⟩ (" " ++ String.ofList chars ++ " ") := by
  have hchars : " " ++ String.ofList chars ++ " " = String.ofList (' ' :: (chars ++ [' '])) := by
    rw [← String.toList_inj]
    simp only [String.toList_append, String.toList_ofList]
    rfl
  rw [hchars]
  exact fixed _ h

theorem operation {p q r : Pending} {left token right : String} (hleft : Phrase W p q left)
    (htoken : Phrase W q q (" " ++ token ++ " ")) (hright : Phrase W q r right) :
    Phrase W p r (left ++ " " ++ token ++ " " ++ right) := by
  have h : left ++ " " ++ token ++ " " ++ right = left ++ (" " ++ token ++ " ") ++ right := by
    simp only [String.append_assoc]
  rw [h]
  exact (hleft.append htoken).append hright

end Phrase

theorem AssignmentOperator.token_phrase {p : Pending} (op : AssignmentOperator) :
    Phrase W p p (" " ++ op.token ++ " ") := by
  cases op <;> exact Phrase.spaced rfl

theorem BinaryOperator.token_phrase {p : Pending} (op : BinaryOperator) :
    Phrase W p p (" " ++ op.token ++ " ") := by
  cases op <;> exact Phrase.spaced rfl

theorem LogicalOperator.token_phrase {p : Pending} (op : LogicalOperator) :
    Phrase W p p (" " ++ op.token ++ " ") := by
  cases op <;> exact Phrase.spaced rfl

/-! ### Texts that write nodes -/

/-- The Double literals of some nodes, in front of others. -/
def owed (nodes : List Node) (doubles : List String) : List String := nodes.flatMap Node.doubles ++ doubles

theorem owed_append (first second : List Node) (doubles : List String) :
    owed (first ++ second) doubles = owed first (owed second doubles) := by
  rw [owed, owed, owed, List.flatMap_append, List.append_assoc]

/-- A node that is no Double literal adds nothing. -/
theorem owed_skip {node : Node} (hnode : node.doubles = []) (nodes : List Node) (doubles : List String) :
    owed (node :: nodes) doubles = owed nodes doubles := by
  rw [owed, List.flatMap_cons, hnode]
  rfl

/-- The text writes the Double literals of the nodes and leaves the brackets as they were. -/
def Spells (W : Word → Prop) (nodes : List Node) (text : String) : Prop :=
  ∀ closers doubles, Phrase W ⟨closers, owed nodes doubles⟩ ⟨closers, doubles⟩ text

theorem Spells.cons {node : Node} {nodes : List Node} {text : String} (h : Spells W nodes text)
    (hnode : node.doubles = []) : Spells W (node :: nodes) text := by
  intro closers doubles
  rw [owed_skip hnode]
  exact h closers doubles

theorem Spells.parenthesized {nodes : List Node} {text : String} (h : Spells W nodes text) :
    Spells W nodes (Expr.parenthesized text) :=
  fun _ doubles => (h _ doubles).parenthesized

/-- The texts write the Double literals of the nodes one text after another. -/
inductive SpellsEach (W : Word → Prop) : List Node → List String → Prop where
  | nil {nodes : List Node} (h : nodes.flatMap Node.doubles = []) : SpellsEach W nodes []
  | cons {first rest : List Node} {text : String} {texts : List String} (hfirst : Spells W first text)
      (hrest : SpellsEach W rest texts) : SpellsEach W (first ++ rest) (text :: texts)

/-- Without Double literals there is nothing to write. -/
theorem Spells.empty {nodes : List Node} (h : nodes.flatMap Node.doubles = []) : Spells W nodes "" := by
  intro closers doubles
  rw [owed, h]
  exact Phrase.empty

namespace SpellsEach

/-- A node that is no Double literal adds nothing. -/
theorem skip {node : Node} {nodes : List Node} {texts : List String} (hnode : node.doubles = [])
    (h : SpellsEach W nodes texts) : SpellsEach W (node :: nodes) texts := by
  cases h with
  | nil h =>
    refine nil ?_
    rw [List.flatMap_cons, hnode, h]
    rfl
  | cons hfirst hrest => exact cons (hfirst.cons hnode) hrest

theorem of_nil {nodes : List Node} (h : SpellsEach W nodes []) : nodes.flatMap Node.doubles = [] := by
  cases h with
  | nil h => exact h

theorem single {nodes : List Node} {text : String} (h : Spells W nodes text) : SpellsEach W nodes [text] := by
  rw [← List.append_nil nodes]
  exact cons h (nil rfl)

/-- Texts at the end that write no Double literal. -/
theorem thenSilent {nodes : List Node} {first second : List String} (hfirst : SpellsEach W nodes first)
    (hsecond : ∀ text ∈ second, Spells W [] text) : SpellsEach W nodes (first ++ second) := by
  induction hfirst with
  | @nil nodes h =>
    induction second with
    | nil => exact nil h
    | cons text rest ih =>
      rw [List.forall_mem_cons] at hsecond
      have hall : SpellsEach W ([] ++ nodes) (text :: rest) := cons hsecond.1 (ih hsecond.2)
      exact hall
  | cons hhead _ ih => exact cons hhead ih

/-- Joined texts write what each of them does. -/
theorem join {nodes : List Node} {texts : List String} (h : SpellsEach W nodes texts) :
    Spells W nodes (Text.joinWith ", " texts) := by
  induction h with
  | nil h => exact Spells.empty h
  | @cons first rest text texts hfirst hrest ih =>
    intro closers doubles
    have hothers := ih closers doubles
    rw [owed_append]
    cases hrest with
    | nil h =>
      rw [owed, owed, h]
      exact hfirst closers doubles
    | cons => exact ((hfirst closers _).thenFixed rfl).append hothers

end SpellsEach

/-! ### Names and types -/

/-- A name is emitted with no character of its own but a digit or a fixed one. -/
theorem Identifier.safe_phrase {p : Pending} {name : String} (h : W (.name name)) :
    Phrase W p p (Identifier.safe name) := by
  rw [Identifier.safe]
  split
  · exact (Phrase.name h).thenFixed rfl
  · split
    · next digits hdigits =>
      have hall : digits.all Char.isDigit = true := by
        rw [Identifier.anonymousDigits?] at hdigits
        split at hdigits
        · next c rest _ =>
          split at hdigits
          · next hrest =>
            injection hdigits with hdigits
            rw [← hdigits]
            exact hrest
          · contradiction
        · contradiction
      exact (Phrase.fixed _ rfl).append (Phrase.digits (List.all_eq_true.mp hall))
    · exact Phrase.name h

namespace SourceType

theorem nameText_phrase {p : Pending} {name : String} (h : W (.name name)) : Phrase W p p (nameText name) := by
  unfold nameText
  split
  case h_23 => exact Phrase.name h
  all_goals exact Phrase.fixed _ rfl

/-- A type is written with the names in it and fixed texts around them. -/
theorem text_phrase {p : Pending} {type : SourceType} (h : ∀ word ∈ type.words, W word) :
    Phrase W p p type.text := by
  induction type generalizing p with
  | named name => exact nameText_phrase (h (.name name) List.mem_cons_self)
  | array element ih =>
    rw [text, arrayText]
    split
    · exact ((Phrase.fixed _ rfl).append (ih h)).thenFixed rfl
    · exact (ih h).thenFixed rfl
  | dictionary key value hkey hvalue =>
    rw [words, names, List.map_append, List.forall_mem_append] at h
    exact ((((Phrase.fixed _ rfl).append (hkey h.1)).thenFixed rfl).append (hvalue h.2)).thenFixed rfl
  | optional wrapped ih =>
    rw [text, optionalText]
    split
    · exact ih h
    · exact (ih h).thenFixed rfl

theorem textOf_phrase {p : Pending} {type : Option SourceType} (h : ∀ word ∈ optionWords type, W word) :
    Phrase W p p (textOf type) := by
  cases type with
  | none => exact Phrase.fixed _ rfl
  | some type =>
    rw [optionWords, Option.toList, List.flatMap_singleton] at h
    exact text_phrase h

end SourceType

/-! ### Bindings -/

namespace Mode

theorem reference_phrase {p : Pending} {name : String} (mode : Mode) (h : Phrase W p p name) :
    Phrase W p p (mode.reference name) := by
  cases mode with
  | native => exact h
  | managed => exact h.thenFixed rfl

theorem rawName_phrase {p : Pending} {name : String} (mode : Mode) (h : Phrase W p p name) :
    Phrase W p p (mode.rawName name) := by
  cases mode with
  | native => exact h
  | managed => exact (Phrase.fixed _ rfl).append h

end Mode

/-! ### Parts of expressions -/

theorem UnaryOperator.token_phrase {p : Pending} (op : UnaryOperator) : Phrase W p p op.token := by
  rw [UnaryOperator.token, String.singleton_eq_ofList]
  cases op <;> exact Phrase.fixed _ rfl

theorem UnaryOperator.apply_phrase {p q : Pending} {operand : String} (op : UnaryOperator)
    (h : Phrase W p q operand) : Phrase W p q (op.apply operand) := by
  rw [UnaryOperator.apply]
  split
  · exact (op.token_phrase.thenFixed rfl).append h
  · exact op.token_phrase.append h

namespace ParameterBag

theorem positionKey_phrase {p : Pending} (index : Nat) : Phrase W p p (positionKey index) :=
  (Phrase.fixed _ rfl).append (Phrase.nat (index + 1))

theorem argumentKey_phrase {p : Pending} {label : Option String} (index : Nat)
    (h : ∀ text, label = some text → W (.name text)) : Phrase W p p (argumentKey index label) := by
  cases label with
  | none => exact positionKey_phrase index
  | some text =>
    rw [argumentKey]
    split
    · exact positionKey_phrase index
    · exact Phrase.name (h text rfl)

theorem argumentText_spells {nodes : List Node} {entries : List String} (h : SpellsEach W nodes entries) :
    Spells W nodes (argumentText entries) := by
  intro closers doubles
  have hjoined := h.join ('}' :: closers) doubles
  cases h with
  | nil h => exact Spells.empty h closers doubles
  | cons => exact ((Phrase.fixed _ rfl).append hjoined).thenFixed rfl

end ParameterBag

namespace Expr

theorem dictionaryText_spells {nodes : List Node} {entries : List String} (h : SpellsEach W nodes entries) :
    Spells W nodes (dictionaryText entries) := by
  intro closers doubles
  have hjoined := h.join ('}' :: ')' :: closers) doubles
  cases h with
  | nil h =>
    rw [owed, h]
    exact Phrase.fixed _ rfl
  | cons => exact ((Phrase.fixed _ rfl).append hjoined).thenFixed rfl

/-- A folded bound is a number, and any other stands as it is. -/
theorem exclusiveLimit_spells {upper : Expr} {limit : String} (inclusive : Bool) (h : Spells W upper.nodes limit) :
    Spells W upper.nodes (upper.exclusiveLimit inclusive limit) := by
  intro closers doubles
  unfold exclusiveLimit
  split
  · split
    · next numeral =>
      cases hnext : Decimal.successor? numeral with
      | none => exact (h closers doubles).thenFixed rfl
      | some next =>
        obtain ⟨value, hvalue⟩ : ∃ value : Int, next = toString value := by
          rw [Decimal.successor?] at hnext
          obtain ⟨value, _, hnext⟩ := Option.bind_eq_some_iff.mp hnext
          split at hnext
          · exact ⟨value + 1, (Option.some.inj hnext).symm⟩
          · exact nomatch hnext
        rw [hvalue]
        exact Phrase.int value
    · exact (h closers doubles).thenFixed rfl
  · exact h closers doubles

theorem entryKey_phrase {key : Expr} {a : List Char} {before after : List String} {text : String}
    (h : ∀ closers, Phrase W ⟨closers, before⟩ ⟨closers, after⟩ text) :
    Phrase W ⟨a, before⟩ ⟨a, after⟩ (key.entryKey text) := by
  have hbrackets : Phrase W ⟨a, before⟩ ⟨a, after⟩ ("[" ++ text ++ "]") :=
    ((Phrase.fixed _ rfl).append (h _)).thenFixed rfl
  unfold entryKey
  split
  · exact h a
  · split
    · exact hbrackets
    · exact h a
  · exact hbrackets

/-! ### Expressions -/

/-- When its words have the property `W`, the expression is written as its nodes ask. -/
def Spelled (W : Word → Prop) (mode : Mode) (e : Expr) : Prop :=
  AllWords W e.nodes → Gives (e.text mode) (Spells W e.nodes)

variable {mode : Mode}

theorem texts_spelled {items : List Expr} (h : ∀ item ∈ items, Spelled W mode item)
    (hwords : AllWords W (itemNodes items)) :
    Gives (texts mode items) (SpellsEach W (itemNodes items)) := by
  induction items with
  | nil => exact Outcome.pure (.nil rfl)
  | cons item rest ih =>
    obtain ⟨hitem, hrest⟩ := List.forall_mem_cons.mp h
    rw [itemNodes, allWords_append] at hwords
    rw [texts, itemNodes]
    refine (hitem hwords.1).bind fun first hfirst => ?_
    refine (ih hrest hwords.2).bind fun others hothers => ?_
    exact Outcome.pure (.cons hfirst hothers)

theorem argumentTexts_spelled {arguments : List Argument} (index : Nat)
    (h : ∀ argument ∈ arguments, Spelled W mode argument.value)
    (hlabels : ∀ argument ∈ arguments, ∀ label, argument.label = some label → W (.name label))
    (hwords : AllWords W (argumentNodes arguments)) :
    Gives (argumentTexts mode index arguments) (SpellsEach W (argumentNodes arguments)) := by
  induction arguments generalizing index with
  | nil => exact Outcome.pure (.nil rfl)
  | cons argument rest ih =>
    obtain ⟨label, value⟩ := argument
    obtain ⟨hvalue, hrest⟩ := List.forall_mem_cons.mp h
    obtain ⟨hlabel, hlabels⟩ := List.forall_mem_cons.mp hlabels
    rw [argumentNodes, allWords_append] at hwords
    rw [argumentTexts, argumentNodes]
    refine (hvalue hwords.1).bind fun text htext => ?_
    refine (ih (index + 1) hrest hlabels hwords.2).bind fun others hothers => ?_
    refine Outcome.pure (.cons (fun closers doubles => ?_) hothers)
    exact ((ParameterBag.argumentKey_phrase index hlabel).thenFixed rfl).append (htext closers doubles)

theorem entryTexts_spelled {entries : List DictionaryEntry}
    (h : ∀ entry ∈ entries, Spelled W mode entry.key ∧ Spelled W mode entry.value)
    (hwords : AllWords W (entryNodes entries)) :
    Gives (entryTexts mode entries) (SpellsEach W (entryNodes entries)) := by
  induction entries with
  | nil => exact Outcome.pure (.nil rfl)
  | cons entry rest ih =>
    obtain ⟨key, value⟩ := entry
    obtain ⟨⟨hkey, hvalue⟩, hrest⟩ := List.forall_mem_cons.mp h
    rw [entryNodes, allWords_append, allWords_append] at hwords
    rw [entryTexts, entryNodes, ← List.append_assoc]
    refine (hkey hwords.1).bind fun keyText hkeyText => ?_
    refine (hvalue hwords.2.1).bind fun text htext => ?_
    refine (ih hrest hwords.2.2).bind fun others hothers => ?_
    refine Outcome.pure (.cons (fun closers doubles => ?_) hothers)
    rw [owed_append]
    exact ((entryKey_phrase fun closers => hkeyText closers _).thenFixed rfl).append (htext closers doubles)

/-- An operation is written as its operands ask, in parentheses or without. -/
theorem operation_spelled {α : Type} {node : Node} {lookup : Except Fault α} {token : α → String} {left right : Expr}
    (finish : String → String) (hnode : node.doubles = [])
    (htoken : ∀ {p : Pending} (op : α), Phrase W p p (" " ++ token op ++ " "))
    (hfinish : ∀ {nodes : List Node} {text : String}, Spells W nodes text → Spells W nodes (finish text))
    (hleft : Spelled W mode left) (hright : Spelled W mode right)
    (hwords : AllWords W (node :: (left.nodes ++ right.nodes))) :
    Gives (do
      let op ← lookup
      let left ← left.text mode
      let right ← right.text mode
      return finish (left ++ " " ++ token op ++ " " ++ right))
      (Spells W (node :: (left.nodes ++ right.nodes))) := by
  rw [allWords_cons, allWords_append] at hwords
  refine (Gives.unknown _).bind fun op _ => (hleft hwords.2.1).bind fun left hleft => ?_
  refine (hright hwords.2.2).bind fun right hright => ?_
  refine Outcome.pure (Spells.cons (hfinish fun closers doubles => ?_) hnode)
  rw [owed_append]
  exact (hleft closers _).operation (htoken op) (hright closers doubles)

/-- **Expressions are written as their nodes ask.** -/
theorem text_spelled (W : Word → Prop) (mode : Mode) (e : Expr) : Spelled W mode e := by
  induction e using Expr.induction with
  | assign target operator value htarget hvalue =>
    intro hwords
    rw [nodes] at hwords
    rw [text, nodes]
    exact operation_spelled id rfl AssignmentOperator.token_phrase id htarget hvalue hwords
  | ternary condition thenValue elseValue hcondition hthen helse =>
    intro hwords
    rw [nodes, allWords_cons, allWords_append, allWords_append] at hwords
    rw [text, nodes]
    refine (hcondition hwords.2.1).bind fun condition hcondition => ?_
    refine (hthen hwords.2.2.1).bind fun first hfirst => (helse hwords.2.2.2).bind fun second hsecond => ?_
    refine Outcome.pure (Spells.cons (fun closers doubles => ?_) rfl)
    rw [owed_append, owed_append]
    exact (((((hcondition _ _).thenFixed rfl).append (hfirst _ _)).thenFixed rfl).append
      (hsecond _ doubles)).parenthesized
  | binary operator left right hleft hright =>
    intro hwords
    rw [nodes] at hwords
    rw [text, nodes]
    exact operation_spelled parenthesized rfl BinaryOperator.token_phrase Spells.parenthesized hleft hright hwords
  | logical operator left right hleft hright =>
    intro hwords
    rw [nodes] at hwords
    rw [text, nodes]
    exact operation_spelled parenthesized rfl LogicalOperator.token_phrase Spells.parenthesized hleft hright hwords
  | unary operator operand hoperand =>
    intro hwords
    rw [nodes, allWords_cons] at hwords
    rw [text, nodes]
    refine (Gives.unknown _).bind fun op _ => (hoperand hwords.2).bind fun operand hoperand => ?_
    exact Outcome.pure (Spells.cons (fun closers doubles => op.apply_phrase (hoperand closers doubles)) rfl)
  | call callee arguments construction hcallee harguments =>
    intro hwords
    rw [nodes, allWords_cons, allWords_append] at hwords
    obtain ⟨hown, hcalleeWords, hargumentWords⟩ := hwords
    have hlabels : ∀ argument ∈ arguments, ∀ label, argument.label = some label → W (.name label) := by
      intro argument hargument label hlabel
      exact hown _ (List.mem_map_of_mem (List.mem_filterMap.mpr ⟨argument, hargument, hlabel⟩))
    rw [text, nodes]
    refine (argumentTexts_spelled 0 harguments hlabels hargumentWords).bind fun entries hentries => ?_
    refine (hcallee hcalleeWords).bind fun base hbase => ?_
    have hbag := ParameterBag.argumentText_spells hentries
    split
    · refine Outcome.pure (Spells.cons (fun closers doubles => ?_) rfl)
      rw [owed_append]
      exact Phrase.construction mode (hbase closers _) (hbag _ doubles).parenthesized
    · refine Outcome.pure (Spells.cons (fun closers doubles => ?_) rfl)
      rw [owed_append]
      exact ((hbase closers _).append (.either (.fixed _ rfl) .empty)).append (hbag _ doubles).parenthesized
  | member object name hobject =>
    intro hwords
    rw [nodes, allWords_cons] at hwords
    rw [text, nodes]
    refine (hobject hwords.2).bind fun base hbase => Outcome.pure (Spells.cons (fun closers doubles => ?_) rfl)
    have hname : W (.name name) := hwords.1 _ List.mem_cons_self
    exact ((hbase closers doubles).append (.either (.fixed _ rfl) (.fixed _ rfl))).append
      (Identifier.safe_phrase hname)
  | slice object lower upper inclusive hobject hlower hupper =>
    intro hwords
    rw [nodes, nodes, allWords_cons, allWords_append, allWords_cons, allWords_append] at hwords
    obtain ⟨_, hobjectWords, _, hlowerWords, hupperWords⟩ := hwords
    rw [text, nodes, nodes]
    refine (hobject hobjectWords).bind fun base hbase => (hlower hlowerWords).bind fun lower hlower => ?_
    refine (hupper hupperWords).bind fun limit hlimit => Outcome.pure (Spells.cons (fun closers doubles => ?_) rfl)
    rw [owed_append, owed_skip rfl, owed_append]
    exact (((((hbase closers _).append (.either (.fixed _ rfl) (.fixed _ rfl))).thenFixed rfl).append
      (hlower _ _)).thenFixed rfl).append (exclusiveLimit_spells inclusive hlimit _ doubles) |>.thenFixed rfl
  | index object position hrange hobject hposition =>
    intro hwords
    rw [nodes, allWords_cons, allWords_append] at hwords
    rw [text, nodes]
    refine (hobject hwords.2.1).bind fun base hbase => ?_
    split
    · next lower upper inclusive => exact absurd rfl (hrange lower upper inclusive)
    · refine (hposition hwords.2.2).bind fun text htext => ?_
      refine Outcome.pure (Spells.cons (fun closers doubles => ?_) rfl)
      rw [owed_append]
      exact ((((hbase closers _).append (.either (.fixed _ rfl) .empty)).thenFixed rfl).append
        (htext _ doubles)).thenFixed rfl
  | optionalChain value forced hvalue =>
    intro hwords
    rw [nodes, allWords_cons] at hwords
    rw [text, nodes]
    exact (hvalue hwords.2).imp fun _ htext => htext.cons rfl
  | cast value target hvalue =>
    intro hwords
    rw [nodes, allWords_cons] at hwords
    rw [text, nodes]
    exact (hvalue hwords.2).imp fun _ htext => htext.cons rfl
  | typeTest value target hvalue =>
    intro hwords
    rw [nodes, allWords_cons] at hwords
    rw [text, nodes]
    refine (hvalue hwords.2).bind fun subject hsubject => ?_
    refine Outcome.pure (Spells.cons (fun closers doubles => ?_) rfl)
    exact Phrase.typeTest (hsubject closers doubles) (SourceType.text_phrase (p := ⟨closers, doubles⟩) hwords.1)
  | attempt value kind hvalue =>
    intro hwords
    rw [nodes, allWords_cons] at hwords
    rw [text, nodes]
    refine (hvalue hwords.2).bind fun text htext => ?_
    cases kind with
    | optional =>
      refine Outcome.pure (Spells.cons (fun closers doubles => ?_) rfl)
      exact ((Phrase.fixed _ rfl).append (htext _ doubles)).thenFixed rfl
    | plain => exact Outcome.pure (htext.cons rfl)
    | forced => exact Outcome.pure (htext.cons rfl)
  | literal value =>
    intro hwords
    rw [nodes, allWords_cons] at hwords
    rw [text, nodes]
    refine Outcome.pure fun closers doubles => ?_
    rw [owed, List.flatMap_singleton]
    exact Phrase.literal (hwords.1 _ List.mem_cons_self)
  | itself =>
    intro _
    exact Outcome.pure (Spells.cons (fun _ _ => Phrase.fixed _ rfl) rfl)
  | var name =>
    intro hwords
    rw [nodes, allWords_cons] at hwords
    have hname : W (.name name) := hwords.1 _ List.mem_cons_self
    exact Outcome.pure (Spells.cons (fun _ _ => mode.reference_phrase (Identifier.safe_phrase hname)) rfl)
  | grouping inner hinner =>
    intro hwords
    rw [nodes, allWords_cons] at hwords
    rw [text, nodes]
    refine (hinner hwords.2).bind fun text htext => Outcome.pure (Spells.cons (fun closers doubles => ?_) rfl)
    exact Phrase.either (htext closers doubles) (htext _ doubles).parenthesized
  | array items hitems =>
    intro hwords
    rw [nodes, allWords_cons] at hwords
    rw [text, nodes]
    refine (texts_spelled hitems hwords.2).bind fun items hitems => ?_
    refine Outcome.pure (Spells.cons (fun closers doubles => ?_) rfl)
    exact ((Phrase.fixed _ rfl).append (hitems.join _ doubles)).thenFixed rfl
  | dictionary entries hentries =>
    intro hwords
    rw [nodes, allWords_cons] at hwords
    rw [text, nodes]
    refine (entryTexts_spelled hentries hwords.2).bind fun entries hentries => ?_
    exact Outcome.pure ((dictionaryText_spells hentries).cons rfl)
  | range lower upper inclusive hlower hupper =>
    intro hwords
    rw [nodes, allWords_cons, allWords_append] at hwords
    rw [text, nodes]
    refine (hlower hwords.2.1).bind fun lower hlower => (hupper hwords.2.2).bind fun limit hlimit => ?_
    refine Outcome.pure (Spells.cons (fun closers doubles => ?_) rfl)
    rw [owed_append]
    exact ((((Phrase.fixed _ rfl).append (hlower _ _)).thenFixed rfl).append
      (exclusiveLimit_spells inclusive hlimit _ doubles)).thenFixed rfl

/-- A condition is written as its nodes ask, also where it goes without its own parentheses. -/
theorem conditionText_spelled (mode : Mode) {condition : Expr} (hwords : AllWords W condition.nodes) :
    Gives (condition.conditionText mode) (Spells W condition.nodes) := by
  have htext := text_spelled W mode condition hwords
  cases condition with
  | binary operator left right =>
    rw [nodes] at hwords
    rw [conditionText, text, nodes]
    simp only [bind_assoc, pure_bind, withoutEnds_parenthesized]
    exact operation_spelled id rfl BinaryOperator.token_phrase id (text_spelled W mode left) (text_spelled W mode right)
      hwords
  | logical operator left right =>
    rw [nodes] at hwords
    rw [conditionText, text, nodes]
    simp only [bind_assoc, pure_bind, withoutEnds_parenthesized]
    exact operation_spelled id rfl LogicalOperator.token_phrase id (text_spelled W mode left) (text_spelled W mode right)
      hwords
  | _ => exact htext.bind fun _ htext => Outcome.pure htext

end Expr

end ScriptLowering
