import ScriptLowering.Proofs.Induction
import ScriptLowering.Proofs.Node

/-!
# Expressions read through records

In managed mode a variable is a record, and an expression reads its value.  On expressions that construct nothing
this is all that the mode changes.

* `Expr.throughRecords` — an expression with the read of a record written out for every variable;
* `Node.isConstruction` — whether a node makes a value of a type;
* `Expr.text_managed` — the text in managed mode is the native text with those reads.

Where the lowering looks at the shape of a part (the key of an entry, the bound of a range, a grouping, a chain),
a variable and the literal put in its place have the same shape.
-/

namespace ScriptLowering

/-! ### Reading records -/

namespace Expr

mutual

/-- The expression with the value of its record written out for every variable. -/
def throughRecords : Expr → Expr
  | .assign target operator value => .assign target.throughRecords operator value.throughRecords
  | .ternary condition thenValue elseValue =>
    .ternary condition.throughRecords thenValue.throughRecords elseValue.throughRecords
  | .binary operator left right => .binary operator left.throughRecords right.throughRecords
  | .logical operator left right => .logical operator left.throughRecords right.throughRecords
  | .unary operator operand => .unary operator operand.throughRecords
  | .call callee arguments construction =>
    .call callee.throughRecords (argumentsThroughRecords arguments) construction
  | .member object name => .member object.throughRecords name
  | .index object position => .index object.throughRecords position.throughRecords
  | .optionalChain value forced => .optionalChain value.throughRecords forced
  | .cast value target => .cast value.throughRecords target
  | .typeTest value target => .typeTest value.throughRecords target
  | .attempt value kind => .attempt value.throughRecords kind
  | .literal value => .literal value
  | .itself => .itself
  | .variable name => .literal (.double (Identifier.safe name ++ ".value"))
  | .grouping inner => .grouping inner.throughRecords
  | .array items => .array (itemsThroughRecords items)
  | .dictionary entries => .dictionary (entriesThroughRecords entries)
  | .range lower upper inclusive => .range lower.throughRecords upper.throughRecords inclusive

/-- Some expressions, read through records. -/
def itemsThroughRecords : List Expr → List Expr
  | [] => []
  | item :: rest => item.throughRecords :: itemsThroughRecords rest

/-- The arguments of a call, read through records. -/
def argumentsThroughRecords : List Argument → List Argument
  | [] => []
  | ⟨label, value⟩ :: rest => ⟨label, value.throughRecords⟩ :: argumentsThroughRecords rest

/-- The entries of a dictionary, read through records. -/
def entriesThroughRecords : List DictionaryEntry → List DictionaryEntry
  | [] => []
  | ⟨key, value⟩ :: rest => ⟨key.throughRecords, value.throughRecords⟩ :: entriesThroughRecords rest

end

/-! ### Shapes that stay -/

theorem isOptionalChain_throughRecords (e : Expr) : e.throughRecords.isOptionalChain = e.isOptionalChain := by
  cases e <;> rfl

theorem isParenthesized_throughRecords (e : Expr) : e.throughRecords.isParenthesized = e.isParenthesized := by
  cases e <;> rfl

theorem exclusiveLimit_throughRecords (upper : Expr) (inclusive : Bool) (text : String) :
    upper.throughRecords.exclusiveLimit inclusive text = upper.exclusiveLimit inclusive text := by
  cases upper <;> rfl

theorem entryKey_throughRecords (key : Expr) (text : String) :
    key.throughRecords.entryKey text = key.entryKey text := by
  cases key <;> rfl

/-- Only a range is a range after the reads are written out. -/
theorem throughRecords_ne_range {position : Expr}
    (h : ∀ lower upper inclusive, position ≠ .range lower upper inclusive) (lower upper : Expr)
    (inclusive : Bool) : position.throughRecords ≠ .range lower upper inclusive := by
  intro hrange
  cases position with
  | range l u i => exact h l u i rfl
  | _ => exact nomatch hrange

end Expr

/-! ### Texts -/

/-- Whether a node makes a value of a type. -/
def Node.isConstruction : Node → Bool
  | .expr (.call _ _ construction) => construction
  | _ => false

/-- None of the nodes makes a value of a type. -/
def ConstructsNothing (nodes : List Node) : Prop := ∀ node ∈ nodes, node.isConstruction = false

theorem constructsNothing_cons {node : Node} {nodes : List Node} (h : ConstructsNothing (node :: nodes)) :
    node.isConstruction = false ∧ ConstructsNothing nodes :=
  List.forall_mem_cons.mp h

theorem constructsNothing_append {first second : List Node} (h : ConstructsNothing (first ++ second)) :
    ConstructsNothing first ∧ ConstructsNothing second :=
  List.forall_mem_append.mp h

namespace Expr

/-- The managed text of an expression is its native text with every variable read through its record. -/
def ReadsRecords (e : Expr) : Prop :=
  ConstructsNothing e.nodes → e.text .managed = e.throughRecords.text .native

theorem texts_managed {items : List Expr} (h : ∀ item ∈ items, item.ReadsRecords)
    (hnodes : ConstructsNothing (itemNodes items)) :
    texts .managed items = texts .native (itemsThroughRecords items) := by
  induction items with
  | nil => rfl
  | cons item rest ih =>
    obtain ⟨hitem, hrest⟩ := List.forall_mem_cons.mp h
    obtain ⟨hitemNodes, hrestNodes⟩ := constructsNothing_append hnodes
    rw [itemsThroughRecords, texts, texts, hitem hitemNodes, ih hrest hrestNodes]

theorem argumentTexts_managed {arguments : List Argument} (index : Nat)
    (h : ∀ argument ∈ arguments, argument.value.ReadsRecords)
    (hnodes : ConstructsNothing (argumentNodes arguments)) :
    argumentTexts .managed index arguments = argumentTexts .native index (argumentsThroughRecords arguments) := by
  induction arguments generalizing index with
  | nil => rfl
  | cons argument rest ih =>
    obtain ⟨label, value⟩ := argument
    obtain ⟨hvalue, hrest⟩ := List.forall_mem_cons.mp h
    obtain ⟨hvalueNodes, hrestNodes⟩ := constructsNothing_append hnodes
    rw [argumentsThroughRecords, argumentTexts, argumentTexts, hvalue hvalueNodes, ih (index + 1) hrest hrestNodes]

theorem entryTexts_managed {entries : List DictionaryEntry}
    (h : ∀ entry ∈ entries, entry.key.ReadsRecords ∧ entry.value.ReadsRecords)
    (hnodes : ConstructsNothing (entryNodes entries)) :
    entryTexts .managed entries = entryTexts .native (entriesThroughRecords entries) := by
  induction entries with
  | nil => rfl
  | cons entry rest ih =>
    obtain ⟨key, value⟩ := entry
    obtain ⟨⟨hkey, hvalue⟩, hrest⟩ := List.forall_mem_cons.mp h
    obtain ⟨hkeyNodes, hothers⟩ := constructsNothing_append hnodes
    obtain ⟨hvalueNodes, hrestNodes⟩ := constructsNothing_append hothers
    rw [entriesThroughRecords, entryTexts, entryTexts, hkey hkeyNodes, hvalue hvalueNodes, ih hrest hrestNodes]
    simp only [entryKey_throughRecords]

/-- **Managed mode reads every variable through its record.**  The managed text of an expression that constructs
nothing, or its fault, is that of the expression with these reads written out in native mode. -/
theorem text_managed (e : Expr) (h : ∀ node ∈ e.nodes, node.isConstruction = false) :
    e.text .managed = e.throughRecords.text .native := by
  change ConstructsNothing e.nodes at h
  induction e using Expr.induction with
  | assign target operator value htarget hvalue =>
    obtain ⟨ht, hv⟩ := constructsNothing_append (constructsNothing_cons h).2
    rw [throughRecords, text, text, htarget ht, hvalue hv]
  | ternary condition thenValue elseValue hcondition hthen helse =>
    obtain ⟨hc, hbranches⟩ := constructsNothing_append (constructsNothing_cons h).2
    obtain ⟨ht, he⟩ := constructsNothing_append hbranches
    rw [throughRecords, text, text, hcondition hc, hthen ht, helse he]
  | binary operator left right hleft hright =>
    obtain ⟨hl, hr⟩ := constructsNothing_append (constructsNothing_cons h).2
    rw [throughRecords, text, text, hleft hl, hright hr]
  | logical operator left right hleft hright =>
    obtain ⟨hl, hr⟩ := constructsNothing_append (constructsNothing_cons h).2
    rw [throughRecords, text, text, hleft hl, hright hr]
  | unary operator operand hoperand =>
    rw [throughRecords, text, text, hoperand (constructsNothing_cons h).2]
  | call callee arguments construction hcallee harguments =>
    obtain ⟨hconstruction, hparts⟩ := constructsNothing_cons h
    obtain ⟨hc, ha⟩ := constructsNothing_append hparts
    -- The mode shows in a call only through what can stand after `new`.
    have hcall : construction = false := hconstruction
    subst hcall
    rw [throughRecords, text, text, argumentTexts_managed 0 harguments ha, hcallee hc,
      isOptionalChain_throughRecords]
    rfl
  | member object name hobject =>
    rw [throughRecords, text, text, hobject (constructsNothing_cons h).2, isOptionalChain_throughRecords]
  | slice object lower upper inclusive hobject hlower hupper =>
    obtain ⟨ho, hrange⟩ := constructsNothing_append (constructsNothing_cons h).2
    obtain ⟨hl, hu⟩ := constructsNothing_append (constructsNothing_cons hrange).2
    rw [throughRecords, throughRecords, text, text, hobject ho, isOptionalChain_throughRecords]
    simp only [hlower hl, hupper hu, exclusiveLimit_throughRecords]
  | index object position hrange hobject hposition =>
    obtain ⟨ho, hp⟩ := constructsNothing_append (constructsNothing_cons h).2
    rw [throughRecords, text_index .managed object hrange, text_index .native _ (throughRecords_ne_range hrange),
      hobject ho, hposition hp, isOptionalChain_throughRecords]
  | optionalChain value forced hvalue =>
    rw [throughRecords, text, text, hvalue (constructsNothing_cons h).2]
  | cast value target hvalue =>
    rw [throughRecords, text, text, hvalue (constructsNothing_cons h).2]
  | typeTest value target hvalue =>
    rw [throughRecords, text, text, hvalue (constructsNothing_cons h).2]
  | attempt value kind hvalue =>
    rw [throughRecords, text, text, hvalue (constructsNothing_cons h).2]
  | literal value => rfl
  | itself => rfl
  | var name => rfl
  | grouping inner hinner =>
    rw [throughRecords, text, text, hinner (constructsNothing_cons h).2, isParenthesized_throughRecords]
  | array items hitems =>
    rw [throughRecords, text, text, texts_managed hitems (constructsNothing_cons h).2]
  | dictionary entries hentries =>
    rw [throughRecords, text, text, entryTexts_managed hentries (constructsNothing_cons h).2]
  | range lower upper inclusive hlower hupper =>
    obtain ⟨hl, hu⟩ := constructsNothing_append (constructsNothing_cons h).2
    rw [throughRecords, text, text, hlower hl, hupper hu]
    simp only [exclusiveLimit_throughRecords]

/-- A key, the bound of a slice and an operand under two signs, all of them variables. -/
theorem text_managed_slice_under_key :
    let e : Expr := .dictionary [⟨.variable "key", .index (.optionalChain (.variable "xs") false)
      (.range (.unary "-" (.unary "-" (.variable "lo"))) (.variable "default") true)⟩]
    (∀ node ∈ e.nodes, node.isConstruction = false) ∧
      e.throughRecords.text .native = .ok
        "(\x7b [key.value]: xs.value?.slice(- -lo.value, default_.value + 1) \x7d)" ∧
      e.text .managed = e.throughRecords.text .native := by
  intro e
  have hnodes : ∀ node ∈ e.nodes, node.isConstruction = false := by decide
  exact ⟨hnodes, rfl, text_managed e hnodes⟩

end Expr

end ScriptLowering
