/-
Pipelines: rules in the order they run, each on what the rule before it
made of the text. A rule that counts nothing leaves the text and the tally
alone.
-/
import ComponentMarkdown.Rule.Basic
import ComponentMarkdown.Tally

namespace ComponentMarkdown

/-- Rules in running order; a rule may occur more than once. -/
structure Pipeline where
  rules : List Rule

namespace Pipeline

/-- A text that went through a pipeline, and what was counted. -/
structure Output where
  text : Text
  tally : Tally

/-- Whether any rule made a substitution. -/
def Output.changed (o : Output) : Bool := !o.tally.isEmpty

/-- No rules. -/
def empty : Pipeline := ⟨[]⟩

/-- One more rule at the end. -/
def push (p : Pipeline) (rule : Rule) : Pipeline := ⟨p.rules ++ [rule]⟩

/-- The names of the rules in running order. -/
def names (p : Pipeline) : List String := p.rules.map Rule.name

/-- Takes in what a rule made of the text before it. -/
def Output.absorb (before : Output) (rule : Rule) (after : Edited) : Output :=
  if after.count = 0 then before
  else ⟨after.text, before.tally.record rule.name after.count⟩

/-- Runs every rule over a text, one after the other. -/
def run (p : Pipeline) (t : Text) : Output :=
  p.rules.foldl (fun before rule => before.absorb rule (rule.apply before.text))
    ⟨t, .empty⟩

/-- What each rule counts when the pipeline runs over a text, in running
order and zeros included. -/
def counts (p : Pipeline) (t : Text) : List (String × Nat) :=
  go p.rules ⟨t, .empty⟩
where
  go : List Rule → Output → List (String × Nat)
    | [], _ => []
    | rule :: rest, before =>
      let after := rule.apply before.text
      (rule.name, after.count) :: go rest (before.absorb rule after)

end Pipeline

end ComponentMarkdown
