/-
Pages made of tags, as a grammar. A page is plain text, closing tags and
opening tags in any order. An opening tag has a name, attributes with a
blank before each, perhaps more blanks, and perhaps a slash; an attribute
is a name, which a colon may precede, alone or with a value in quotes, or a
name with a value in braces. Each part carries what makes it well formed,
so whatever has one of these types can be written into a page.

Markdown that means something else cannot occur: there is no backtick and
no tilde in a page, and `<` only where a tag starts (`plain_written`).
-/
import ComponentMarkdown.Proofs.Rule.BraceAttributes
import ComponentMarkdown.Proofs.Text.Case

namespace ComponentMarkdown

open Markup

namespace Page

-- ========================================================= characters

/-- A character that starts neither a tag nor code. -/
def isPlain (c : Char) : Bool := !(c == '<' || c == '\x60' || c == '~')

/-- A character that the name of a tag or an attribute may hold. -/
def isNameChar (c : Char) : Bool := isAsciiWord c || c == '-'

/-- Plain is what is none of the three. -/
theorem isPlain_iff {c : Char} :
    isPlain c = true ↔ c ≠ '<' ∧ c ≠ '\x60' ∧ c ≠ '~' := by
  unfold isPlain
  simp [and_assoc]

/-- A class of characters without the three is plain. -/
theorem isPlain_of_class {f : Char → Bool}
    (hf : ∀ d ∈ ['<', '\x60', '~'], f d = false) {c : Char}
    (hc : f c = true) : isPlain c = true := by
  have hnot := not_mem_of_class hf hc
  simpa [isPlain_iff, not_or] using hnot

theorem isNameChar_of_alphanum {c : Char} (hc : c.isAlphanum = true) :
    isNameChar c = true := by
  unfold isNameChar isAsciiWord
  rw [hc]
  rfl

theorem isNameChar_of_start {c : Char}
    (hc : BraceAttribute.isNameStart c = true) : isNameChar c = true := by
  unfold BraceAttribute.isNameStart at hc
  rw [Bool.or_eq_true] at hc
  rcases hc with hc | hc
  · exact isNameChar_of_alphanum (isAlphanum_of_alpha hc)
  · rw [eq_of_beq hc]
    rfl

/-- No blank belongs to a name. -/
theorem isBlank_of_isNameChar {c : Char} (hc : isNameChar c = true) :
    isBlank c = false := isBlank_of_class (by decide +kernel) hc

theorem isQuote_of_isNameChar {c : Char} (hc : isNameChar c = true) :
    isQuote c = false := isQuote_of_class (by decide) hc

/-- The names here are names to the rule for braces. -/
theorem nameChar_of_isNameChar {c : Char} (hc : isNameChar c = true) :
    BraceAttribute.isNameChar c = true := by
  unfold isNameChar isAsciiWord at hc
  unfold BraceAttribute.isNameChar
  rw [Bool.or_eq_true, Bool.or_eq_true] at hc
  rcases hc with (hc | hc) | hc
  · rw [isWordChar_of_alphanum hc]
    rfl
  · rw [eq_of_beq hc]
    rfl
  · rw [hc, Bool.or_true]

-- ============================================================== names

/-- The name of a tag: a letter, then letters and digits. -/
structure TagName where
  first : Char
  rest : Text
  first_alpha : first.isAlpha = true
  rest_alphanum : ∀ c ∈ rest, c.isAlphanum = true

/-- The name of an attribute: a letter or an underscore, then letters,
digits, underscores and hyphens. -/
structure AttributeName where
  first : Char
  rest : Text
  first_start : BraceAttribute.isNameStart first = true
  rest_nameChar : ∀ c ∈ rest, isNameChar c = true

/-- The name as it is written. -/
def TagName.text (n : TagName) : Text := n.first :: n.rest

/-- The name as it is written. -/
def AttributeName.text (n : AttributeName) : Text := n.first :: n.rest

/-- The name of a tag could be that of an attribute. -/
theorem TagName.isNameChar (n : TagName) :
    ∀ c ∈ n.text, isNameChar c = true :=
  List.forall_mem_cons.2
    ⟨isNameChar_of_alphanum (isAlphanum_of_alpha n.first_alpha),
      fun c hc => isNameChar_of_alphanum (n.rest_alphanum c hc)⟩

theorem AttributeName.isNameChar (n : AttributeName) :
    ∀ c ∈ n.text, isNameChar c = true :=
  List.forall_mem_cons.2
    ⟨isNameChar_of_start n.first_start, n.rest_nameChar⟩

/-- The name in small letters. -/
def AttributeName.asciiLower (n : AttributeName) : AttributeName where
  first := n.first.toLower
  rest := n.rest.asciiLower
  first_start := by
    rw [caseless (f := BraceAttribute.isNameStart) (by decide)]
    exact n.first_start
  rest_nameChar := by
    intro c hc
    obtain ⟨d, hd, rfl⟩ := List.mem_map.1 hc
    rw [caseless (f := Page.isNameChar) (by decide)]
    exact n.rest_nameChar d hd

-- ========================================================= attributes

/-- A value between quotes, which does not hold the quote itself. -/
structure QuotedValue where
  quote : Char
  text : Text
  quote_isQuote : isQuote quote = true
  plain : ∀ c ∈ text, isPlain c = true
  unquoted : quote ∉ text

/-- The value with its quotes. -/
def QuotedValue.written (v : QuotedValue) : Text :=
  v.quote :: (v.text ++ [v.quote])

/-- An attribute with a value in quotes or none. -/
structure Attribute where
  lead : Blank
  /-- Whether a colon precedes the name. -/
  bound : Bool
  name : AttributeName
  value : Option QuotedValue

namespace Attribute

/-- The name, with the blank and perhaps the colon before it. -/
def head (a : Attribute) : Text :=
  a.lead.val :: ((if a.bound then [':'] else []) ++ a.name.text)

/-- What follows the name. -/
def assigned (a : Attribute) : Text :=
  match a.value with
  | none => []
  | some v => '=' :: v.written

/-- The attribute as it is written. -/
def written (a : Attribute) : Text := a.head ++ a.assigned

end Attribute

/-- An attribute with a value in braces: not blank, and without braces and
double quotes. -/
structure BracedAttribute where
  lead : Blank
  name : AttributeName
  value : Text
  plain : ∀ c ∈ value, isPlain c = true
  value_char : ∀ c ∈ value, BraceAttribute.isValueChar c = true
  visible : value.trim ≠ []

namespace BracedAttribute

/-- The attribute as the rule for braces reads it. -/
def toBrace (a : BracedAttribute) : BraceAttribute :=
  ⟨a.lead.val, a.name.text, a.value⟩

/-- The attribute as it is written. -/
def written (a : BracedAttribute) : Text := a.toBrace.written

end BracedAttribute

/-- An attribute as it may stand in a page. -/
inductive SourceAttribute where
  | plain (a : Attribute)
  | braced (a : BracedAttribute)

/-- The attribute as it is written. -/
def SourceAttribute.written : SourceAttribute → Text
  | .plain a => a.written
  | .braced a => a.written

-- =============================================================== tags

/-- An opening tag, with a slash or without. -/
structure OpenTag (α : Type) where
  name : TagName
  attributes : List α
  tail : List Blank
  slash : Bool

section

variable {α β : Type}

namespace OpenTag

/-- What follows the attributes. -/
def ending (tag : OpenTag α) : Text :=
  tag.tail.map Subtype.val ++ if tag.slash then ['/', '>'] else ['>']

/-- The tag behind its `<`, where the attributes are written in a given
way. -/
def body (write : α → Text) (tag : OpenTag α) : Text :=
  tag.name.text ++ (tag.attributes.flatMap write ++ tag.ending)

/-- The tag as it is written. -/
def written (write : α → Text) (tag : OpenTag α) : Text :=
  '<' :: tag.body write

/-- The same tag with other attributes. -/
def map (f : α → β) (tag : OpenTag α) : OpenTag β :=
  ⟨tag.name, tag.attributes.map f, tag.tail, tag.slash⟩

end OpenTag

/-- Text without tags. -/
structure PlainText where
  text : Text
  plain : ∀ c ∈ text, isPlain c = true

/-- A part of a page. -/
inductive Item (α : Type) where
  | text (t : PlainText)
  | closing (name : TagName)
  | opening (tag : OpenTag α)

/-- A closing tag, as it is written. -/
def TagName.closing (name : TagName) : Text :=
  '<' :: '/' :: (name.text ++ ['>'])

/-- The item as it is written. -/
def Item.written (write : α → Text) : Item α → Text
  | .text t => t.text
  | .closing name => name.closing
  | .opening tag => tag.written write

/-- The same item with other attributes. -/
def Item.map (f : α → β) : Item α → Item β
  | .text t => .text t
  | .closing name => .closing name
  | .opening tag => .opening (tag.map f)

end

end Page

/-- Text and tags with attributes of a kind. -/
abbrev Page (α : Type) := List (Page.Item α)

namespace Page

/-- The page as it is written, where the attributes are written in a given
way. -/
def written {α : Type} (write : α → Text) (page : Page α) : Text :=
  page.flatMap (Item.written write)

-- ======================================================= plain writing

theorem isPlain_of_isBlank {c : Char} (hc : isBlank c = true) :
    isPlain c = true :=
  isPlain_of_class (by decide) hc

theorem isPlain_of_isNameChar {c : Char} (hc : isNameChar c = true) :
    isPlain c = true :=
  isPlain_of_class (by decide) hc

/-- No tag starts in plain text. -/
theorem PlainText.not_mem_opening (t : PlainText) : '<' ∉ t.text :=
  fun h => (isPlain_iff.1 (t.plain _ h)).1 rfl

/-- A value in quotes is plain, -/
theorem QuotedValue.plain_written (v : QuotedValue) :
    ∀ c ∈ v.written, isPlain c = true := by
  have hquote : isPlain v.quote = true :=
    isPlain_of_class (by decide) v.quote_isQuote
  refine List.forall_mem_cons.2 ⟨hquote, ?_⟩
  exact List.forall_mem_append.2 ⟨v.plain, List.forall_mem_singleton.2 hquote⟩

/-- and so is an attribute with one, -/
theorem Attribute.plain_written (a : Attribute) :
    ∀ c ∈ a.written, isPlain c = true := by
  refine List.forall_mem_append.2 ⟨?_, ?_⟩
  · refine List.forall_mem_cons.2 ⟨isPlain_of_isBlank a.lead.2, ?_⟩
    refine List.forall_mem_append.2 ⟨?_, fun c hc =>
      isPlain_of_isNameChar (a.name.isNameChar c hc)⟩
    cases a.bound with
    | true => exact List.forall_mem_singleton.2 (by decide)
    | false => exact List.forall_mem_nil _
  · unfold assigned
    cases a.value with
    | none => exact List.forall_mem_nil _
    | some v => exact List.forall_mem_cons.2 ⟨by decide, v.plain_written⟩

/-- or with a value in braces. -/
theorem BracedAttribute.plain_written (a : BracedAttribute) :
    ∀ c ∈ a.written, isPlain c = true := by
  have hname : ∀ c ∈ a.name.text, isPlain c = true := fun c hc =>
    isPlain_of_isNameChar (a.name.isNameChar c hc)
  have hbraces : ∀ c ∈ '=' :: '{' :: a.value, isPlain c = true :=
    List.forall_mem_cons.2 ⟨by decide,
      List.forall_mem_cons.2 ⟨by decide, a.plain⟩⟩
  refine List.forall_mem_append.2 ⟨?_, List.forall_mem_singleton.2 (by decide)⟩
  refine List.forall_mem_append.2 ⟨?_, hbraces⟩
  exact List.forall_mem_cons.2 ⟨isPlain_of_isBlank a.lead.2, hname⟩

/-- So no attribute of a page holds `<`, a backtick or a tilde. -/
theorem SourceAttribute.plain_written (a : SourceAttribute) :
    ∀ c ∈ a.written, isPlain c = true := by
  cases a with
  | plain a => exact a.plain_written
  | braced a => exact a.plain_written

section

variable {α : Type} {write : α → Text}

theorem OpenTag.isBlank_tail (tag : OpenTag α) :
    ∀ c ∈ tag.tail.map Subtype.val, isBlank c = true := by
  intro c hc
  obtain ⟨b, -, rfl⟩ := List.mem_map.1 hc
  exact b.2

/-- There is nothing but plain characters in a tag behind its `<`. -/
theorem OpenTag.plain_body
    (hwrite : ∀ a, ∀ c ∈ write a, isPlain c = true) (tag : OpenTag α) :
    ∀ c ∈ tag.body write, isPlain c = true := by
  refine List.forall_mem_append.2 ⟨fun c hc =>
    isPlain_of_isNameChar (tag.name.isNameChar c hc), ?_⟩
  refine List.forall_mem_append.2 ⟨fun c hc => ?_,
    List.forall_mem_append.2 ⟨fun c hc => ?_, ?_⟩⟩
  · obtain ⟨a, -, ha⟩ := List.mem_flatMap.1 hc
    exact hwrite a c ha
  · exact isPlain_of_isBlank (tag.isBlank_tail c hc)
  · cases tag.slash <;> decide

/-- A closing tag is plain behind its `<`. -/
theorem TagName.plain_closing (name : TagName) :
    ∀ c ∈ '/' :: (name.text ++ ['>']), isPlain c = true :=
  List.forall_mem_cons.2 ⟨by decide, List.forall_mem_append.2
    ⟨fun c hc => isPlain_of_isNameChar (name.isNameChar c hc),
      List.forall_mem_singleton.2 (by decide)⟩⟩

/-- In a page there is neither a backtick nor a tilde. -/
theorem plain_written (hwrite : ∀ a, ∀ c ∈ write a, isPlain c = true)
    (page : Page α) :
    ∀ c ∈ page.written write, c ≠ '\x60' ∧ c ≠ '~' := by
  intro c hc
  obtain ⟨item, -, hc⟩ := List.mem_flatMap.1 hc
  have htag {body : Text} (hbody : ∀ d ∈ body, isPlain d = true)
      (hmem : c ∈ '<' :: body) : c ≠ '\x60' ∧ c ≠ '~' := by
    rcases List.mem_cons.1 hmem with rfl | hmem
    · decide
    · exact (isPlain_iff.1 (hbody c hmem)).2
  cases item with
  | text t => exact (isPlain_iff.1 (t.plain c hc)).2
  | closing name => exact htag name.plain_closing hc
  | opening tag => exact htag (tag.plain_body hwrite) hc

end

end Page

end ComponentMarkdown
