/-
The registry: every rule there is, by name and in canonical order. The
order matters, since attribute values have to be in shape before tags are
restructured, so a selection of rules always runs in this order, whatever
order the names come in.
-/
import ComponentMarkdown.Pipeline
import ComponentMarkdown.Rule.AttributeCasing
import ComponentMarkdown.Rule.BraceAttributes
import ComponentMarkdown.Rule.Callouts
import ComponentMarkdown.Rule.IframeClosing

namespace ComponentMarkdown

/-- A name that no rule has. -/
structure UnknownRule where
  name : String
  deriving DecidableEq, Repr

/-- The report about an unknown rule. -/
def UnknownRule.message (e : UnknownRule) : String :=
  "Unknown rule: " ++ e.name

namespace Registry

/-- Every rule, in canonical order. -/
def rules : List Rule :=
  [.braceAttributes, .iframeClosing, .attributeCasing, .callouts]

theorem mem_rules_iff {rule : Rule} :
    rule ∈ rules
      ↔ rule = .braceAttributes ∨ rule = .iframeClosing
        ∨ rule = .attributeCasing ∨ rule = .callouts := by
  simp [rules]

/-- The rule of a name. -/
def get (name : String) : Except UnknownRule Rule :=
  match rules.find? (·.name == name) with
  | some rule => .ok rule
  | none => .error ⟨name⟩

/-- Whether a name is a rule's. -/
def contains (name : String) : Bool := rules.any (·.name == name)

/-- The name that selects every rule. -/
def everything : String := "all"

/-- The pipeline of all rules. -/
def all : Pipeline := ⟨rules⟩

/-- The pipeline of the named rules, in canonical order. The name that
selects everything wins over all others, unknown ones too; otherwise the
first unknown name is an error. -/
def pipeline (names : List String) : Except UnknownRule Pipeline :=
  if names.contains everything then .ok all
  else
    match names.find? (!contains ·) with
    | some name => .error ⟨name⟩
    | none => .ok ⟨rules.filter fun rule => names.contains rule.name⟩

/-- Names and descriptions in canonical order. -/
def list : List (String × String) :=
  rules.map fun rule => (rule.name, rule.description)

end Registry

end ComponentMarkdown
