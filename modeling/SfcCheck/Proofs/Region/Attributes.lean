import SfcCheck.Region.Attribute

/-!
# Attributes as they are written

Attributes stand one behind the other, each behind at least one blank: a name alone, or a name with
a value that is quoted or bare. What is read from them are their names in lower case with their
values, in order. Nothing of a quoted value is taken for an attribute, whatever stands in it.
-/

namespace SfcCheck.Attribute

/-! ## Values -/

/-- A value behind an equals sign. -/
inductive Value where
  | quoted (quote : Char) (text : List Char)
  | bare (text : List Char)

namespace Value

/-- The value itself. -/
def content : Value → List Char
  | quoted _ text => text
  | bare text => text

/-- The value as it is written. -/
def text : Value → List Char
  | quoted quote text => quote :: (text ++ [quote])
  | bare text => text

/-- A quoted value does not contain its quotes, and a bare one is some characters of its kind. -/
def Valid : Value → Prop
  | quoted quote text => (quote = '"' ∨ quote = '\'') ∧ quote ∉ text
  | bare text => text ≠ [] ∧ ∀ c ∈ text, isBareChar c = true

end Value

/-- A value with the blanks on either side of its equals sign. -/
structure Assignment where
  before : List Char
  after : List Char
  value : Value
  before_blank : ∀ c ∈ before, Text.isBlank c = true
  after_blank : ∀ c ∈ after, Text.isBlank c = true
  valid : value.Valid

/-- The assignment as it is written. -/
def Assignment.text (a : Assignment) : List Char := a.before ++ '=' :: (a.after ++ a.value.text)

/-- An attribute with the blanks before it. -/
structure Written where
  gap : List Char
  name : List Char
  assignment? : Option Assignment
  gap_ne_nil : gap ≠ []
  gap_blank : ∀ c ∈ gap, Text.isBlank c = true
  name_ne_nil : name ≠ []
  name_chars : ∀ c ∈ name, isNameChar c = true

namespace Written

/-- What is written behind the name. -/
def valueText (a : Written) : List Char :=
  match a.assignment? with
  | some assignment => assignment.text
  | none => []

/-- The attribute as it is written. -/
def text (a : Written) : List Char := a.gap ++ (a.name ++ a.valueText)

/-- The value, which is empty if there is none. -/
def value (a : Written) : List Char :=
  match a.assignment? with
  | some assignment => assignment.value.content
  | none => []

/-- The name in lower case with the value. -/
def entry (a : Written) : String × String :=
  (String.ofList (Text.lowerCase a.name), String.ofList a.value)

end Written

/-! ## Characters -/

theorem isNameChar_of_isBlank {c : Char} (h : Text.isBlank c = true) : isNameChar c = false := by
  simp [isNameChar, h]

theorem isBareChar_of_isBlank {c : Char} (h : Text.isBlank c = true) : isBareChar c = false := by
  simp [isBareChar, h]

theorem isBlank_of_isNameChar {c : Char} (h : isNameChar c = true) : Text.isBlank c = false := by
  simp only [isNameChar, Bool.not_eq_true', Bool.or_eq_false_iff] at h
  exact h.1.1.1.1.1.1

theorem isBlank_of_isBareChar {c : Char} (h : isBareChar c = true) : Text.isBlank c = false := by
  simp only [isBareChar, Bool.not_eq_true', Bool.or_eq_false_iff] at h
  exact h.1.1.1.1.1.1

theorem isBlank_equals : Text.isBlank '=' = false := by decide

/-- A quote is neither blank nor part of a bare value. -/
theorem quote_chars {c : Char} (h : c = '"' ∨ c = '\'') :
    Text.isBlank c = false ∧ isBareChar c = false := by
  rcases h with rfl | rfl <;> decide

/-! ## Reading values -/

/-- A value is over where a blank follows, and at the end. -/
def Ends (rest : List Char) : Prop := ∀ c ∈ rest.head?, Text.isBlank c = true

variable {rest : List Char}

theorem quoted?_append {q : Char} {text : List Char} (h : q ∉ text) (rest : List Char) :
    quoted? q (text ++ q :: rest) = some (text, rest) := by
  have hall : ∀ c ∈ text, (c != q) = true := by
    intro c hc
    simpa using fun heq : c = q => h (heq ▸ hc)
  have hquote : ∀ c ∈ (q :: rest).head?, (c != q) = false := by simp
  rw [quoted?, Text.dropWhile_append_of_boundary hall hquote,
    Text.takeWhile_append_of_boundary hall hquote]

theorem Value.value?_append {v : Value} (hv : v.Valid) (hrest : Ends rest) :
    value? (v.text ++ rest) = some (v.content, rest) := by
  cases v with
  | quoted q text =>
      have hlist : (Value.quoted q text).text ++ rest = q :: (text ++ q :: rest) := by
        simp [Value.text]
      rw [hlist, value?, if_pos hv.1]
      exact quoted?_append hv.2 rest
  | bare text =>
      obtain ⟨c, cs, rfl⟩ := List.exists_cons_of_ne_nil hv.1
      have hc : isBareChar c = true := hv.2 c (.head _)
      have hcs : ∀ d ∈ cs, isBareChar d = true := fun d hd => hv.2 d (.tail _ hd)
      have hquote : ¬ (c = '"' ∨ c = '\'') := by
        intro hq
        rw [(quote_chars hq).2] at hc
        cases hc
      have hstop : ∀ d ∈ rest.head?, isBareChar d = false :=
        fun d hd => isBareChar_of_isBlank (hrest d hd)
      change value? (c :: (cs ++ rest)) = some (c :: cs, rest)
      rw [value?, if_neg hquote, if_pos hc, Text.takeWhile_append_of_boundary hcs hstop,
        Text.dropWhile_append_of_boundary hcs hstop]

theorem Value.text_starts {v : Value} (hv : v.Valid) :
    ∃ c cs, v.text = c :: cs ∧ Text.isBlank c = false := by
  cases v with
  | quoted q text => exact ⟨q, _, rfl, (quote_chars hv.1).1⟩
  | bare text =>
      obtain ⟨c, cs, rfl⟩ := List.exists_cons_of_ne_nil hv.1
      exact ⟨c, cs, rfl, isBlank_of_isBareChar (hv.2 c (.head _))⟩

/-- A value ends with a character that is not blank, and with a slash only if it is bare. -/
theorem Value.text_ends {v : Value} (hv : v.Valid) :
    ∃ cs c, v.text = cs ++ [c] ∧ Text.isBlank c = false ∧
      (c = '/' → ∃ text, v = .bare text ∧ text.getLast? = some '/') := by
  cases v with
  | quoted q text =>
      refine ⟨q :: text, q, rfl, (quote_chars hv.1).1, ?_⟩
      rintro rfl
      exact absurd hv.1 (by decide)
  | bare text =>
      have hlast := hv.2 _ (List.getLast_mem hv.1)
      refine ⟨text.dropLast, text.getLast hv.1, (List.dropLast_concat_getLast hv.1).symm,
        isBlank_of_isBareChar hlast, ?_⟩
      intro hslash
      exact ⟨text, rfl, by rw [List.getLast?_eq_some_getLast hv.1, hslash]⟩

namespace Assignment

theorem assigned?_append (a : Assignment) (hrest : Ends rest) :
    assigned? (a.text ++ rest) = some (a.value.content, rest) := by
  have hlist : a.text ++ rest = a.before ++ '=' :: (a.after ++ (a.value.text ++ rest)) := by
    simp [text]
  have hequals : Text.trimLeft Text.isBlank (a.text ++ rest) =
      '=' :: (a.after ++ (a.value.text ++ rest)) := by
    rw [hlist, Text.trimLeft_append a.before_blank, Text.trimLeft_of_head isBlank_equals]
  have hvalue : Text.trimLeft Text.isBlank (a.after ++ (a.value.text ++ rest)) =
      a.value.text ++ rest := by
    obtain ⟨c, cs, htext, hc⟩ := Value.text_starts a.valid
    rw [Text.trimLeft_append a.after_blank, htext, List.cons_append, Text.trimLeft_of_head hc]
  simp only [assigned?, hequals, hvalue]
  exact Value.value?_append a.valid hrest

/-- No name goes on into an assignment. -/
theorem text_starts (a : Assignment) : ∃ c cs, a.text = c :: cs ∧ isNameChar c = false := by
  cases hbefore : a.before with
  | nil => exact ⟨'=', a.after ++ a.value.text, by rw [text, hbefore]; rfl, by decide⟩
  | cons c cs =>
      have hc : Text.isBlank c = true := a.before_blank c (by rw [hbefore]; exact .head _)
      exact ⟨c, cs ++ '=' :: (a.after ++ a.value.text), by rw [text, hbefore]; rfl,
        isNameChar_of_isBlank hc⟩

end Assignment

/-! ## Reading attributes -/

/-- Nothing that follows belongs to an attribute: it is over, and no equals sign comes next. -/
structure Settled (rest : List Char) : Prop where
  ends : Ends rest
  equals : (Text.trimLeft Text.isBlank rest).head? ≠ some '='

theorem scan_of_blanks {blanks : List Char} (h : ∀ c ∈ blanks, Text.isBlank c = true)
    (rest : List Char) : scan (blanks ++ rest) = scan rest := by
  induction blanks with
  | nil => rfl
  | cons c blanks ih =>
      have hc : ¬ isNameChar c = true := by
        rw [isNameChar_of_isBlank (h c (.head _))]
        exact Bool.false_ne_true
      rw [List.cons_append, scan, if_neg hc]
      exact ih fun d hd => h d (.tail _ hd)

/-- A name is read with what is assigned to it. -/
theorem scan_of_name {name after : List Char} (hne : name ≠ [])
    (hname : ∀ c ∈ name, isNameChar c = true) (hafter : ∀ c ∈ after.head?, isNameChar c = false) :
    scan (name ++ after) =
      match assigned? after with
      | some (v, rest) =>
        (String.ofList (Text.lowerCase name), String.ofList v) :: scan rest
      | none => (String.ofList (Text.lowerCase name), "") :: scan after := by
  obtain ⟨c, cs, rfl⟩ := List.exists_cons_of_ne_nil hne
  have hcs : ∀ d ∈ cs, isNameChar d = true := fun d hd => hname d (.tail _ hd)
  rw [List.cons_append, scan, if_pos (hname c (.head _)),
    Text.takeWhile_append_of_boundary hcs hafter, Text.dropWhile_append_of_boundary hcs hafter]
  split <;> simp [*]

theorem assigned?_of_settled (h : Settled rest) : assigned? rest = none := by
  rw [assigned?]
  split
  · next r hr => exact absurd (by rw [hr]; rfl) h.equals
  · rfl

/-- An attribute ends with a character that is not blank, and with a slash only if its value is
bare. -/
theorem Written.text_ends (a : Written) :
    ∃ cs c, a.text = cs ++ [c] ∧ Text.isBlank c = false ∧
      (c = '/' → ∃ b ∈ a.assignment?, ∃ text, b.value = .bare text ∧ text.getLast? = some '/') := by
  cases hassignment : a.assignment? with
  | none =>
      have hlast := a.name_chars _ (List.getLast_mem a.name_ne_nil)
      refine ⟨a.gap ++ a.name.dropLast, a.name.getLast a.name_ne_nil, ?_,
        isBlank_of_isNameChar hlast, ?_⟩
      · simp [text, valueText, hassignment, List.dropLast_concat_getLast]
      · intro hslash
        rw [hslash] at hlast
        exact absurd hlast (by decide)
  | some b =>
      obtain ⟨cs, c, hvalue, hc, hslash⟩ := Value.text_ends b.valid
      refine ⟨a.gap ++ (a.name ++ (b.before ++ '=' :: (b.after ++ cs))), c, ?_, hc, ?_⟩
      · simp [text, valueText, hassignment, Assignment.text, hvalue]
      · intro heq
        exact ⟨b, rfl, hslash heq⟩

/-- An attribute is read back if nothing that follows belongs to it. -/
theorem Written.scan_append (a : Written) (hrest : Settled rest) :
    scan (a.text ++ rest) = a.entry :: scan rest := by
  have hlist : a.text ++ rest = a.gap ++ (a.name ++ (a.valueText ++ rest)) := by
    simp [text]
  rw [hlist, scan_of_blanks a.gap_blank]
  cases hassignment : a.assignment? with
  | none =>
      have htext : a.valueText ++ rest = rest := by rw [valueText, hassignment]; rfl
      have hstop : ∀ c ∈ rest.head?, isNameChar c = false :=
        fun c hc => isNameChar_of_isBlank (hrest.ends c hc)
      rw [htext, scan_of_name a.name_ne_nil a.name_chars hstop, assigned?_of_settled hrest]
      simp [entry, value, hassignment]
  | some b =>
      have htext : a.valueText = b.text := by rw [valueText, hassignment]
      have hstop : ∀ c ∈ (b.text ++ rest).head?, isNameChar c = false := by
        obtain ⟨c, cs, hb, hc⟩ := b.text_starts
        simp [hb, hc]
      rw [htext, scan_of_name a.name_ne_nil a.name_chars hstop, b.assigned?_append hrest.ends]
      simp [entry, value, hassignment]

/-- Blanks at the end, and further attributes before them, settle what comes before. -/
theorem settled_of_attributes (as : List Written) {gap : List Char}
    (hgap : ∀ c ∈ gap, Text.isBlank c = true) : Settled (as.flatMap Written.text ++ gap) := by
  cases as with
  | nil =>
      have hall : Text.trimLeft Text.isBlank gap = [] := by
        rw [← List.append_nil gap, Text.trimLeft_append hgap]
        rfl
      refine ⟨fun c hc => hgap c (List.mem_of_mem_head? hc), ?_⟩
      simp [hall]
  | cons a as =>
      obtain ⟨c, cs, hgap'⟩ := List.exists_cons_of_ne_nil a.gap_ne_nil
      obtain ⟨n, ns, hname⟩ := List.exists_cons_of_ne_nil a.name_ne_nil
      have hn : isNameChar n = true := a.name_chars n (by rw [hname]; exact .head _)
      have hlist : (a :: as).flatMap Written.text ++ gap =
          a.gap ++ n :: (ns ++ (a.valueText ++ (as.flatMap Written.text ++ gap))) := by
        simp [Written.text, hname]
      rw [hlist]
      constructor
      · rw [hgap']
        intro d hd
        obtain rfl : c = d := by simpa using hd
        exact a.gap_blank c (by rw [hgap']; exact .head _)
      · rw [Text.trimLeft_append a.gap_blank, Text.trimLeft_of_head (isBlank_of_isNameChar hn)]
        intro heq
        obtain rfl : n = '=' := by simpa using heq
        exact absurd hn (by decide)

/-- Attributes are read back in order. -/
theorem scan_attributes (as : List Written) {gap : List Char}
    (hgap : ∀ c ∈ gap, Text.isBlank c = true) :
    scan (as.flatMap Written.text ++ gap) = as.map Written.entry := by
  induction as with
  | nil =>
      have hblank := scan_of_blanks hgap []
      rw [List.append_nil] at hblank
      rw [List.flatMap_nil, List.nil_append, hblank, scan]
      rfl
  | cons a as ih =>
      rw [List.flatMap_cons, List.append_assoc, a.scan_append (settled_of_attributes as hgap), ih]
      rfl

/-! ## Attributes of a tag -/

/-- The name in lower case. -/
def Written.key (a : Written) : String := String.ofList (Text.lowerCase a.name)

/-- Attributes one behind the other, with any blanks before the first and behind the last. -/
structure Listing where
  lead : List Char
  attributes : List Written
  trail : List Char
  lead_blank : ∀ c ∈ lead, Text.isBlank c = true
  trail_blank : ∀ c ∈ trail, Text.isBlank c = true

namespace Listing

/-- The attributes as they are written, the first one without the blanks before it. -/
def body (l : Listing) : List Char :=
  match l.attributes with
  | [] => []
  | a :: as => a.name ++ (a.valueText ++ as.flatMap Written.text)

/-- The listing as it is written. -/
def text (l : Listing) : List Char := l.lead ++ (l.body ++ l.trail)

/-- It makes no difference what blanks stand before the first attribute. -/
theorem scan_text (l : Listing) : scan l.text = l.attributes.map Written.entry := by
  rw [text, scan_of_blanks l.lead_blank, ← scan_attributes l.attributes l.trail_blank, body]
  split
  · next hnone =>
      rw [hnone]
      rfl
  · next a as hsome =>
      have hlist : (a :: as).flatMap Written.text ++ l.trail =
          a.gap ++ (a.name ++ (a.valueText ++ as.flatMap Written.text) ++ l.trail) := by
        simp [Written.text]
      rw [hsome, hlist, scan_of_blanks a.gap_blank]

end Listing

/-- Just the written attributes are read, so that nothing in a value is taken for one. Each name in
lower case has one value, and of several equal names the last one gives it. -/
theorem ofText_listing (l : Listing) :
    scan l.text = l.attributes.map Written.entry ∧
    (ofText l.text).keys.Nodup ∧
    (∀ key, key ∈ (ofText l.text).keys ↔ ∃ a ∈ l.attributes, a.key = key) ∧
    ∀ key value, (ofText l.text).get? key = some value ↔ ∃ before a after,
      l.attributes = before ++ a :: after ∧ a.key = key ∧ String.ofList a.value = value ∧
      ∀ b ∈ after, b.key ≠ key := by
  have htable : ofText l.text = .ofList (l.attributes.map Written.entry) := by
    rw [ofText, l.scan_text]
  rw [htable]
  refine ⟨l.scan_text, Table.nodup_keys_ofList _, ?_, ?_⟩
  · intro key
    rw [Table.mem_keys_ofList]
    constructor
    · rintro ⟨e, he, rfl⟩
      obtain ⟨a, ha, rfl⟩ := List.mem_map.mp he
      exact ⟨a, ha, rfl⟩
    · rintro ⟨a, ha, rfl⟩
      exact ⟨a.entry, List.mem_map_of_mem ha, rfl⟩
  · intro key value
    rw [Table.get?_ofList_map_eq_some_iff]
    apply exists₃_congr
    intro before a after
    rw [Written.entry, Prod.mk.injEq, and_assoc]
    rfl

example : ofText "setup Lang=\"ts\" src = './a b=\"c\".ts'\nlang=tsx/ ".toList =
    [("setup", ""), ("lang", "tsx/"), ("src", "./a b=\"c\".ts")] := by
  decide +kernel

end SfcCheck.Attribute
