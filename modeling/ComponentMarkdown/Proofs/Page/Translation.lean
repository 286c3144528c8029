/-
What becomes of a page, tag by tag. Four steps follow one another. Values
in braces become quoted ones, and their attributes bound unless the value is
a number (`quoted`); self-closing iframes get a closing tag (`closed`);
attribute names with a known mixed-case spelling are lowered (`lowered`); and
callouts become containers (`contained`).

The last step has to know which callouts are open. Of each kind the open
ones form a stack, which tells whether they became containers: a closing tag
stays exactly if the tag it takes off its stack stayed.
-/
import ComponentMarkdown.Proofs.Page.Grammar
import ComponentMarkdown.Proofs.Rule.Substitutions
import Mathlib.Logic.Function.Basic

namespace ComponentMarkdown.Page

/-- A page with the attributes of its tags replaced one by one. -/
def mapAttributes {α β : Type} (f : α → β) (page : Page α) : Page β :=
  page.map (Item.map f)

-- ==================================================== values in braces

namespace BracedAttribute

theorem not_mem_trim (a : BracedAttribute) : '"' ∉ a.value.trim :=
  fun h => absurd (a.value_char _ (Text.mem_of_mem_trim h)) (by decide)

theorem not_mem_value (a : BracedAttribute) : '"' ∉ a.value :=
  fun h => absurd (a.value_char _ h) (by decide)

/-- The attribute with its value in quotes: digits are a literal value, and
without the blanks around them; anything else is bound. -/
def quoted (a : BracedAttribute) : Attribute :=
  if a.value.trim.all Char.isDigit then
    { lead := a.lead
      bound := false
      name := a.name
      value := some {
        quote := '"'
        text := a.value.trim
        quote_isQuote := Markup.isQuote_double
        plain := fun c hc => a.plain c (Text.mem_of_mem_trim hc)
        unquoted := a.not_mem_trim } }
  else
    { lead := a.lead
      bound := true
      name := a.name
      value := some {
        quote := '"'
        text := a.value
        quote_isQuote := Markup.isQuote_double
        plain := a.plain
        unquoted := a.not_mem_value } }

end BracedAttribute

/-- The attribute with its value in quotes, if it has one. -/
def SourceAttribute.quoted : SourceAttribute → Attribute
  | .plain a => a
  | .braced a => a.quoted

-- ============================================================= iframes

/-- Whether the tag is an iframe that closes itself. -/
def OpenTag.isClosedIframe {α : Type} (tag : OpenTag α) : Bool :=
  tag.name.text == "iframe".toList && tag.slash

/-- The item, or the two tags that a self-closing iframe becomes. -/
def Item.closed {α : Type} : Item α → List (Item α)
  | .opening tag =>
    if tag.isClosedIframe then
      [.opening { tag with tail := [], slash := false }, .closing tag.name]
    else [.opening tag]
  | item => [item]

/-- The page with its self-closing iframes closed by tags. -/
def closed {α : Type} (page : Page α) : Page α := page.flatMap Item.closed

-- ===================================================== attribute names

/-- The attribute with its name in small letters, if it is a known one. -/
def Attribute.lowered (a : Attribute) : Attribute :=
  if a.name.text ∈ MixedCaseName.known then
    { a with name := a.name.asciiLower }
  else a

-- ============================================================ callouts

/-- The kind of callout that a tag of this name is. -/
def TagName.kind? (n : TagName) : Option CalloutKind :=
  CalloutKind.all.find? fun k => k.tagName == n.text

/-- Whether the attribute is a class, bound or not. -/
def Attribute.isClass (a : Attribute) : Bool :=
  a.name.text == "class".toList

/-- The classes of a class attribute that can be written in double quotes,
unless they are bound. -/
def Attribute.classes? (a : Attribute) : Option Text :=
  if a.bound then none
  else
    match a.value with
    | none => some []
    | some v => if '"' ∈ v.text then none else some v.text

/-- The classes that attributes give a tag, if there is one class attribute
at most, and it can be merged into others. -/
def classes? (attributes : List Attribute) : Option Text :=
  match attributes.filter Attribute.isClass with
  | [] => some []
  | [a] => a.classes?
  | _ => none

/-- The container that an opening tag of a callout becomes, if its classes
can be merged. -/
def OpenTag.container? (kind : CalloutKind) (tag : OpenTag Attribute) :
    Option Text :=
  (classes? tag.attributes).map fun classes =>
    kind.container classes
      ((tag.attributes.filter fun a => !a.isClass).flatMap Attribute.written)

/-- Of each kind, whether the open callouts became containers, the latest
first. -/
abbrev Stacks := CalloutKind → List Bool

/-- What a part of a page becomes, and what is open behind it. -/
def Item.contained (st : Stacks) : Item Attribute → Text × Stacks
  | .text t => (t.text, st)
  | .closing name =>
    match name.kind? with
    | none => (name.closing, st)
    | some kind =>
      (if (st kind).head? = some false then name.closing
        else CalloutTag.containerEnd,
        Function.update st kind (st kind).tail)
  | .opening tag =>
    match tag.name.kind? with
    | none => (tag.written Attribute.written, st)
    | some kind =>
      let new? := tag.container? kind
      if tag.slash then
        ((new?.map (· ++ CalloutTag.containerEnd)).getD
          (tag.written Attribute.written), st)
      else
        (new?.getD (tag.written Attribute.written),
          Function.update st kind (new?.isSome :: st kind))

/-- A page with its callouts made containers. -/
def contained (st : Stacks) : Page Attribute → Text
  | [] => []
  | item :: page =>
    (item.contained st).1 ++ contained (item.contained st).2 page

-- ============================================================ together

/-- What becomes of a page. -/
def translated (page : Page SourceAttribute) : Text :=
  contained (fun _ => [])
    (((page.mapAttributes SourceAttribute.quoted).closed).mapAttributes
      Attribute.lowered)

end ComponentMarkdown.Page
