import Mathlib.Data.List.Forall2
import ScriptLowering.Json.Record

/-!
# Spellings of records and choices

A record has more than one spelling: an object gives its fields under their names, a list gives them in their
order, and some fields may be left out.  This module says which documents spell a record and a choice, apart
from how they are read, and shows that the readers accept just these documents.

* `Json.Field` — a field of a record with what it holds, and where it may be left out;
* `Json.IsRecord`, `Json.IsChoice`, `Json.IsAlone` — the documents that spell a record or a choice;
* `Json.Reads` — a reader gives a value exactly for the spellings of the value;
* `Json.isRecord_iff_slots` — a record is spelled exactly when every slot fills its field;
* `Json.isRecord_two`, `Json.isRecord_three`, `Json.isRecord_iff_bind` — reading a record from its slots.

Readers of trees are bounded by the depth of the document, so `Reads` speaks of documents below a depth.
-/

namespace ScriptLowering.Json

variable {α : Type}

/-! ### Spellings -/

/-- A field of a record, with what it holds. -/
structure Field where
  name : String
  /-- The documents that spell what the field holds. -/
  spelling : Json → Prop
  /-- Whether an object may have no member for the field. -/
  omissible : Prop
  /-- Whether a list may end before the field. -/
  trailing : Prop

namespace Field

/-- A field that has to be given. -/
def required (name : String) (spelling : Json → Prop) : Field := ⟨name, spelling, False, False⟩

/-- A field that an object may leave out when it holds nothing. -/
def optional (name : String) (isNone : Prop) (spelling : Json → Prop) : Field := ⟨name, spelling, isNone, False⟩

/-- A field that may be left out when it holds its default. -/
def defaulted (name : String) (isDefault : Prop) (spelling : Json → Prop) : Field :=
  ⟨name, spelling, isDefault, isDefault⟩

end Field

/-- The documents that spell a record with the given fields.  An object has one member for each field, in any
order and among any others, or none where the field may be left out.  A list has an item for each field in
order, and may end where all fields that follow may be left out. -/
def IsRecord (fields : List Field) : Json → Prop
  | .object members => ∀ field ∈ fields,
    ((members.map Prod.fst).count field.name = 1 ∧ ∃ value, (field.name, value) ∈ members ∧ field.spelling value) ∨
      (field.name ∉ members.map Prod.fst ∧ field.omissible)
  | .array items => ∃ given left, fields = given ++ left ∧
    List.Forall₂ (fun field item => field.spelling item) given items ∧ ∀ field ∈ left, field.trailing
  | _ => False

/-- The documents that spell the alternative of the given name with its content. -/
def IsChoice (name : String) (content : Json → Prop) : Json → Prop
  | .object members => ∃ document, members = [(name, document)] ∧ content document
  | _ => False

/-- The documents that spell the alternative of the given name, which has no content. -/
def IsAlone (name : String) (document : Json) : Prop :=
  document = .string name ∨ document = .object [(name, .null)]

/-- The documents that spell a text. -/
def IsText (text : String) (document : Json) : Prop := document = .string text

/-- The documents that spell a truth value. -/
def IsBool (value : Bool) (document : Json) : Prop := document = .bool value

/-- The documents that spell a number of 32 bits. -/
def IsWord32 (value : UInt32) (document : Json) : Prop := document = .natural value.toNat

/-- The arrays whose items are as asked for. -/
def IsArray (content : List Json → Prop) : Json → Prop
  | .array items => content items
  | _ => False

/-- The documents that spell a list, given the spellings of its items. -/
def IsList (spelling : α → Json → Prop) (values : List α) : Json → Prop :=
  IsArray (List.Forall₂ spelling values)

/-- The documents that spell a value that may be missing, given the spellings of the value. -/
def IsNullable (spelling : α → Json → Prop) : Option α → Json → Prop
  | none, document => document = .null
  | some value, document => spelling value document

/-! ### Readers -/

/-- Of documents of depth less than `n`, the reader accepts exactly the spellings of each value. -/
def Reads (n : Nat) (read : Json → Option α) (spelling : α → Json → Prop) : Prop :=
  ∀ document : Json, document.depth < n → ∀ value, spelling value document ↔ read document = some value

variable {n : Nat} {read : Json → Option α} {spelling : α → Json → Prop}

theorem reads_text : Reads n text? IsText := by
  intro document _ text
  cases document <;> simp [text?, IsText]

theorem reads_bool : Reads n bool? IsBool := by
  intro document _ value
  cases document <;> simp [bool?, IsBool]

theorem reads_word32 : Reads n word32? IsWord32 := by
  intro document _ value
  cases document with
  | natural number =>
    simp only [word32?, IsWord32, Json.natural.injEq, Option.ite_none_right_eq_some, Option.some.injEq]
    constructor
    · rintro rfl
      exact ⟨value.toNat_lt, UInt32.ofNat_toNat⟩
    · rintro ⟨hsize, rfl⟩
      rw [UInt32.toNat_ofNat_of_lt' hsize]
  | _ => simp [word32?, IsWord32]

theorem depth_lt_of_mem {item : Json} {items : List Json} (h : item ∈ items) :
    item.depth < (Json.array items).depth := by
  induction items with
  | nil => simp at h
  | cons first rest ih =>
    simp only [depth, depthOfItems] at ih ⊢
    rcases List.mem_cons.mp h with rfl | h
    · omega
    · have := ih h
      omega

theorem depth_lt_of_mem_object {name : String} {value : Json} {members : List (String × Json)}
    (h : (name, value) ∈ members) : value.depth < (Json.object members).depth := by
  induction members with
  | nil => simp at h
  | cons first rest ih =>
    obtain ⟨key, other⟩ := first
    simp only [depth, depthOfMembers] at ih ⊢
    rcases List.mem_cons.mp h with h | h
    · obtain ⟨rfl, rfl⟩ := Prod.mk.inj h
      omega
    · have := ih h
      omega

/-- What is read from a list is read from one of its items. -/
theorem mapM_some_mem {β γ : Type} {f : β → Option γ} {xs : List β} {ys : List γ} (h : xs.mapM f = some ys) :
    ∀ y ∈ ys, ∃ x ∈ xs, f x = some y := by
  induction xs generalizing ys with
  | nil => simp_all
  | cons x xs ih =>
    simp only [List.mapM_cons, bind, pure, Option.bind_eq_some_iff, Option.some.injEq] at h
    obtain ⟨y, hy, others, hothers, rfl⟩ := h
    simp only [List.mem_cons, forall_eq_or_imp, exists_eq_or_imp]
    exact ⟨.inl hy, fun other hother => .inr (ih hothers other hother)⟩

/-- Reading item by item gives the values that the items spell one by one. -/
theorem mapM_eq_some_iff {items : List Json} {values : List α} (h : Reads n read spelling)
    (hdepth : ∀ item ∈ items, item.depth < n) :
    List.Forall₂ spelling values items ↔ items.mapM read = some values := by
  induction items generalizing values with
  | nil => cases values <;> simp
  | cons item rest ih =>
    have hitem := h item (hdepth item List.mem_cons_self)
    have hrest : ∀ others, List.Forall₂ spelling others rest ↔ rest.mapM read = some others :=
      fun others => ih fun other hother => hdepth other (List.mem_cons_of_mem item hother)
    rw [List.mapM_cons]
    cases values with
    | nil => simp [Option.bind_eq_some_iff]
    | cons value values => simp [Option.bind_eq_some_iff, hitem, hrest]

theorem Reads.list (h : Reads n read spelling) : Reads n (list? read) (IsList spelling) := by
  intro document hdepth values
  cases document with
  | array items =>
    exact mapM_eq_some_iff h fun item hitem => Nat.lt_trans (depth_lt_of_mem hitem) hdepth
  | _ => simp [list?, IsList, IsArray]

/-- A value that may be missing is read back when `null` does not spell the value itself. -/
theorem Reads.nullable (h : Reads n read spelling) (hnull : read .null = none) :
    Reads n (nullable? read) (IsNullable spelling) := by
  intro document hdepth value
  have hvalue := h document hdepth
  by_cases hdocument : document = .null
  · subst hdocument
    cases value with
    | none => simp [nullable?, IsNullable]
    | some value => simp [nullable?, IsNullable, hvalue, hnull]
  · have hread : nullable? read document = (read document).map some := by
      cases document <;> first | exact absurd rfl hdocument | rfl
    cases value with
    | none => simp [hread, IsNullable, hdocument]
    | some value => simp [hread, IsNullable, hvalue]

/-! ### Slots -/

/-- Whether a slot gives what the field holds. -/
def Slot.Fills (slot : Slot) (field : Field) : Prop :=
  match slot with
  | .given value => field.spelling value
  | .missing => field.omissible
  | .cut => field.trailing

/-- What a slot gives is of depth less than `n`. -/
def Slot.Below (n : Nat) (slot : Slot) : Prop := ∀ value, slot = .given value → value.depth < n

namespace Slot.Below

variable {slot : Slot} {name : String}

/-- A field that has to be given is filled with what is read. -/
theorem required (hslot : slot.Below n) (h : Reads n read spelling) (value : α) :
    slot.Fills (.required name (spelling value)) ↔ slot.required read = some value := by
  cases slot with
  | given document => exact h document (hslot document rfl) value
  | missing => simp [Slot.required, Slot.Fills, Field.required]
  | cut => simp [Slot.required, Slot.Fills, Field.required]

/-- A field with a default is filled with what is read. -/
theorem defaulted (hslot : slot.Below n) (h : Reads n read spelling) (default value : α) :
    slot.Fills (.defaulted name (value = default) (spelling value)) ↔ slot.orElse default read = some value := by
  cases slot with
  | given document => exact h document (hslot document rfl) value
  | missing => simp [Slot.orElse, Slot.Fills, Field.defaulted, eq_comm]
  | cut => simp [Slot.orElse, Slot.Fills, Field.defaulted, eq_comm]

/-- A field that may be missing is filled with what is read, when `null` does not spell a value of it. -/
theorem optional (hslot : slot.Below n) (h : Reads n read spelling) (hnull : read .null = none)
    (value : Option α) :
    slot.Fills (.optional name (value = none) (IsNullable spelling value)) ↔ slot.optional read = some value := by
  cases slot with
  | given document =>
    have hread : Slot.optional read (.given document) = nullable? read document := by cases document <;> rfl
    rw [hread]
    exact h.nullable hnull document (hslot document rfl) value
  | missing => simp [Slot.optional, Slot.Fills, Field.optional, eq_comm]
  | cut => simp [Slot.optional, Slot.Fills, Field.optional]

end Slot.Below

/-- The members under a name are counted by its occurrences among the keys. -/
theorem length_filter_eq_count (name : String) (members : List (String × Json)) :
    (members.filter fun member => member.1 = name).length = (members.map Prod.fst).count name := by
  rw [List.count, List.countP_map, List.countP_eq_length_filter]
  congr 2

/-- The slot of a field in an object fills it when the field has its one member, or none and may do without. -/
theorem slotOf?_fills_iff (field : Field) (members : List (String × Json)) :
    (∃ slot, slotOf? field.name members = some slot ∧ slot.Fills field) ↔
      ((members.map Prod.fst).count field.name = 1 ∧
          ∃ value, (field.name, value) ∈ members ∧ field.spelling value) ∨
        (field.name ∉ members.map Prod.fst ∧ field.omissible) := by
  have hcount := length_filter_eq_count field.name members
  have hmem : ∀ value, (field.name, value) ∈ members.filter (fun member => member.1 = field.name) ↔
      (field.name, value) ∈ members := by
    intro value
    simp [List.mem_filter]
  rw [← List.count_eq_zero, ← hcount, slotOf?]
  simp only [← hmem]
  -- The object has no member under the name, one, or more than one.
  generalize hfound : members.filter (fun member => member.1 = field.name) = found
  match found with
  | [] => simp [Slot.Fills]
  | [(key, value)] =>
    have hkey : key = field.name := by
      have hfirst : (key, value) ∈ members.filter (fun member => member.1 = field.name) := by simp [hfound]
      simpa using (List.mem_filter.mp hfirst).2
    simp [Slot.Fills, hkey]
  | _ :: _ :: _ => simp

/-- The slots of an object fill the fields one by one. -/
theorem slotsOfMembers_fill_iff (fields : List Field) (members : List (String × Json)) :
    (∃ slots, (fields.map (·.name)).mapM (slotOf? · members) = some slots ∧
        List.Forall₂ Slot.Fills slots fields) ↔
      ∀ field ∈ fields, ∃ slot, slotOf? field.name members = some slot ∧ slot.Fills field := by
  induction fields with
  | nil => simp
  | cons field rest ih =>
    rw [List.forall_mem_cons, ← ih, List.map_cons, List.mapM_cons]
    constructor
    · rintro ⟨slots, hslots, hfill⟩
      simp only [bind, pure, Option.bind_eq_some_iff, Option.some.injEq] at hslots
      obtain ⟨slot, hslot, others, hothers, rfl⟩ := hslots
      obtain ⟨hfirst, hrest⟩ := List.forall₂_cons.mp hfill
      exact ⟨⟨slot, hslot, hfirst⟩, others, hothers, hrest⟩
    · rintro ⟨⟨slot, hslot, hfirst⟩, others, hothers, hrest⟩
      refine ⟨slot :: others, ?_, List.forall₂_cons.mpr ⟨hfirst, hrest⟩⟩
      simp [hslot, hothers]

/-- The slots of a list fill the fields when the items do, and the fields after the end may be left out. -/
theorem slotsOfItems?_fill_iff (fields : List Field) (items : List Json) :
    (∃ slots, slotsOfItems? (fields.map (·.name)) items = some slots ∧ List.Forall₂ Slot.Fills slots fields) ↔
      ∃ given left, fields = given ++ left ∧
        List.Forall₂ (fun field item => field.spelling item) given items ∧ ∀ field ∈ left, field.trailing := by
  induction fields generalizing items with
  | nil => cases items <;> simp [slotsOfItems?, and_assoc]
  | cons field rest ih =>
    cases items with
    | nil =>
      have hrest := ih []
      simp only [List.map_cons, slotsOfItems?, Option.map_eq_some_iff]
      constructor
      · rintro ⟨_, ⟨slots, hslots, rfl⟩, hfill⟩
        obtain ⟨hfirst, hothers⟩ := List.forall₂_cons.mp hfill
        obtain ⟨given, left, rfl, hgiven, hleft⟩ := hrest.mp ⟨slots, hslots, hothers⟩
        obtain rfl := List.forall₂_nil_right_iff.mp hgiven
        exact ⟨[], field :: left, rfl, .nil, List.forall_mem_cons.mpr ⟨hfirst, hleft⟩⟩
      · rintro ⟨given, left, hfields, hgiven, hleft⟩
        obtain rfl := List.forall₂_nil_right_iff.mp hgiven
        rw [List.nil_append] at hfields
        subst hfields
        obtain ⟨hfirst, hothers⟩ := List.forall_mem_cons.mp hleft
        obtain ⟨slots, hslots, hfill⟩ := hrest.mpr ⟨[], rest, rfl, .nil, hothers⟩
        exact ⟨_, ⟨slots, hslots, rfl⟩, List.forall₂_cons.mpr ⟨hfirst, hfill⟩⟩
    | cons item items =>
      have hrest := ih items
      simp only [List.map_cons, slotsOfItems?, Option.map_eq_some_iff]
      constructor
      · rintro ⟨_, ⟨slots, hslots, rfl⟩, hfill⟩
        obtain ⟨hfirst, hothers⟩ := List.forall₂_cons.mp hfill
        obtain ⟨given, left, rfl, hgiven, hleft⟩ := hrest.mp ⟨slots, hslots, hothers⟩
        exact ⟨field :: given, left, rfl, .cons hfirst hgiven, hleft⟩
      · rintro ⟨given, left, hfields, hgiven, hleft⟩
        obtain ⟨first, others, hfirst, hothers, rfl⟩ := List.forall₂_cons_right_iff.mp hgiven
        obtain ⟨rfl, rfl⟩ := List.cons.inj hfields
        obtain ⟨slots, hslots, hfill⟩ := hrest.mpr ⟨others, left, rfl, hothers, hleft⟩
        exact ⟨_, ⟨slots, hslots, rfl⟩, List.forall₂_cons.mpr ⟨hfirst, hfill⟩⟩

/-- **Slots and spellings.**  A document spells a record exactly when it has a slot for each field and the slots
fill the fields. -/
theorem isRecord_iff_slots (fields : List Field) (document : Json) :
    IsRecord fields document ↔
      ∃ slots, document.slots? (fields.map (·.name)) = some slots ∧ List.Forall₂ Slot.Fills slots fields := by
  cases document with
  | object members => simp only [IsRecord, slots?, slotsOfMembers_fill_iff, slotOf?_fills_iff]
  | array items => exact (slotsOfItems?_fill_iff fields items).symm
  | _ => simp [IsRecord, slots?]

/-- What an object gives for a field lies inside the object. -/
theorem below_of_slotOf? {name : String} {members : List (String × Json)} {slot : Slot}
    (h : slotOf? name members = some slot) : slot.Below (Json.object members).depth := by
  rintro value rfl
  simp only [slotOf?] at h
  split at h
  · simp at h
  · next key other hfound =>
    obtain rfl : other = value := by simpa using h
    have hmem : (key, other) ∈ members.filter (fun member => member.1 = name) := by simp [hfound]
    exact depth_lt_of_mem_object (List.mem_filter.mp hmem).1
  · simp at h

/-- What a list gives for a field is one of its items. -/
theorem mem_of_slotsOfItems? {names : List String} {items : List Json} {slots : List Slot}
    (h : slotsOfItems? names items = some slots) {value : Json} (hvalue : .given value ∈ slots) : value ∈ items := by
  induction names generalizing items slots with
  | nil =>
    cases items with
    | nil =>
      obtain rfl : [] = slots := by simpa [slotsOfItems?] using h
      simp at hvalue
    | cons item items => simp [slotsOfItems?] at h
  | cons name names ih =>
    cases items with
    | nil =>
      obtain ⟨others, hothers, rfl⟩ := Option.map_eq_some_iff.mp h
      exact ih hothers (by simpa using hvalue)
    | cons item items =>
      obtain ⟨others, hothers, rfl⟩ := Option.map_eq_some_iff.mp h
      rcases List.mem_cons.mp hvalue with hfirst | hrest
      · exact Slot.given.inj hfirst ▸ List.mem_cons_self
      · exact List.mem_cons_of_mem item (ih hothers hrest)

/-- What the slots of a document give lies inside the document. -/
theorem below_of_mem_slots {names : List String} {document : Json} {slots : List Slot}
    (h : document.slots? names = some slots) : ∀ slot ∈ slots, slot.Below document.depth := by
  intro slot hslot
  cases document with
  | object members =>
    obtain ⟨name, -, hname⟩ := mapM_some_mem h slot hslot
    exact below_of_slotOf? hname
  | array items =>
    rintro value rfl
    exact depth_lt_of_mem (mem_of_slotsOfItems? h hslot)
  | _ => simp [slots?] at h

/-- There is one slot for each field. -/
theorem length_of_slots? {names : List String} {document : Json} {slots : List Slot}
    (h : document.slots? names = some slots) : slots.length = names.length := by
  cases document with
  | object members =>
    simp only [slots?] at h
    induction names generalizing slots with
    | nil => simp_all
    | cons name names ih =>
      simp only [List.mapM_cons, bind, pure, Option.bind_eq_some_iff, Option.some.injEq] at h
      obtain ⟨slot, -, others, hothers, rfl⟩ := h
      simp [ih hothers]
  | array items =>
    simp only [slots?] at h
    induction names generalizing items slots with
    | nil => cases items <;> simp_all [slotsOfItems?]
    | cons name names ih =>
      cases items with
      | nil =>
        obtain ⟨others, hothers, rfl⟩ := Option.map_eq_some_iff.mp h
        simp [ih [] hothers]
      | cons item items =>
        obtain ⟨others, hothers, rfl⟩ := Option.map_eq_some_iff.mp h
        simp [ih items hothers]
  | _ => simp [slots?] at h

theorem Slot.Below.mono {slot : Slot} {m : Nat} (h : slot.Below m) (hle : m ≤ n) : slot.Below n :=
  fun value hvalue => Nat.lt_of_lt_of_le (h value hvalue) hle

/-- Reading a record from its slots accepts exactly the spellings of the record, when what is read from slots
below the depth of the document is what fills the fields. -/
theorem isRecord_iff_bind {fields : List Field} {document : Json} {next : List Slot → Option α} {value : α}
    (hdepth : document.depth ≤ n)
    (h : ∀ slots : List Slot, slots.length = fields.length → (∀ slot ∈ slots, slot.Below n) →
      (List.Forall₂ Slot.Fills slots fields ↔ next slots = some value)) :
    IsRecord fields document ↔ (document.slots? (fields.map (·.name)) >>= next) = some value := by
  rw [isRecord_iff_slots]
  refine Iff.trans (exists_congr fun slots => and_congr_right fun hslots => ?_) Option.bind_eq_some_iff.symm
  refine h slots (by simpa using length_of_slots? hslots) fun slot hslot => ?_
  exact (below_of_mem_slots hslots slot hslot).mono hdepth

/-- Reading a record of two fields. -/
theorem isRecord_two {first second : Field} {document : Json} {next : Slot → Slot → Option α} {value : α}
    (hdepth : document.depth ≤ n)
    (h : ∀ a b : Slot, a.Below n → b.Below n → (a.Fills first ∧ b.Fills second ↔ next a b = some value)) :
    IsRecord [first, second] document ↔
      (do
        let [a, b] ← document.slots? [first.name, second.name] | none
        next a b) = some value := by
  refine isRecord_iff_bind hdepth fun slots hlength hslots => ?_
  match slots, hlength with
  | [a, b], _ =>
    simp only [List.forall_mem_cons] at hslots
    simp [h a b hslots.1 hslots.2.1]

/-- Reading a record of three fields. -/
theorem isRecord_three {first second third : Field} {document : Json} {next : Slot → Slot → Slot → Option α}
    {value : α} (hdepth : document.depth ≤ n)
    (h : ∀ a b c : Slot, a.Below n → b.Below n → c.Below n →
      (a.Fills first ∧ b.Fills second ∧ c.Fills third ↔ next a b c = some value)) :
    IsRecord [first, second, third] document ↔
      (do
        let [a, b, c] ← document.slots? [first.name, second.name, third.name] | none
        next a b c) = some value := by
  refine isRecord_iff_bind hdepth fun slots hlength hslots => ?_
  match slots, hlength with
  | [a, b, c], _ =>
    simp only [List.forall_mem_cons] at hslots
    simp [h a b c hslots.1 hslots.2.1 hslots.2.2.1]

/-! ### Choices -/

theorem choice?_eq_string {document : Json} {name : String} (h : document.choice? = some (name, none)) :
    document = .string name := by
  unfold choice? at h
  split at h <;> simp_all

theorem choice?_eq_object {document : Json} {name : String} {content : Json}
    (h : document.choice? = some (name, some content)) : document = .object [(name, content)] := by
  unfold choice? at h
  split at h <;> simp_all

/-- An object with one member spells the alternative of its key when the member spells the content. -/
theorem isChoice_object {name : String} {spelling : Json → Prop} {content : Json} :
    IsChoice name spelling (.object [(name, content)]) ↔ spelling content := by
  simp [IsChoice]

theorem IsChoice.choice? {name : String} {spelling : Json → Prop} {document : Json}
    (h : IsChoice name spelling document) : ∃ content, document.choice? = some (name, content) := by
  cases document with
  | object members =>
    obtain ⟨content, rfl, -⟩ := h
    exact ⟨some content, rfl⟩
  | _ => exact h.elim

theorem isAlone_iff {name : String} {document : Json} :
    IsAlone name document ↔ ∃ content, document.choice? = some (name, content) ∧ isBare content = true := by
  constructor
  · rintro (rfl | rfl)
    · exact ⟨none, rfl, rfl⟩
    · exact ⟨some .null, rfl, rfl⟩
  · rintro ⟨_ | content, hchoice, hbare⟩
    · exact .inl (choice?_eq_string hchoice)
    · obtain rfl : content = .null := by
        cases content <;> first | rfl | exact nomatch hbare
      exact .inr (choice?_eq_object hchoice)

theorem isAlone_object {name : String} {content : Json} :
    IsAlone name (.object [(name, content)]) ↔ isBare (some content) = true := by
  simp [isAlone_iff, choice?]

/-- The content of an alternative lies inside the document. -/
theorem depth_content_lt (name : String) (content : Json) : content.depth < (Json.object [(name, content)]).depth :=
  depth_lt_of_mem_object List.mem_cons_self

end ScriptLowering.Json
