/-
The transformer: a pipeline, and the suffix that marks the documents it
applies to. Prose segments run through the pipeline, fenced blocks pass
untouched, and the parts are joined again in order.

As long as nothing has changed no text is built; the first change copies
the document up to its segment. A document that no rule changes is
reported as such, so whoever asked need not process it again.
-/
import ComponentMarkdown.Registry
import ComponentMarkdown.Segment

namespace ComponentMarkdown

/-- What a transformer makes of a document. -/
inductive Outcome where
  /-- Not a document to transform, or one that no rule changes. -/
  | unchanged
  | changed (text : Text) (tally : Tally)

namespace Outcome

/-- The resulting text, which is the source of an unchanged document. -/
def textOr (source : Text) : Outcome → Text
  | .unchanged => source
  | .changed text _ => text

end Outcome

/-- The rules for documents whose identifier ends in a suffix. -/
structure Transformer where
  suffix : String
  pipeline : Pipeline

namespace Transformer

/-- The suffix of Markdown files. -/
def markdownSuffix : String := ".md"

/-- All rules, for Markdown files. -/
def standard : Transformer := ⟨markdownSuffix, Registry.all⟩

/-- Whether a document is transformed at all. -/
def isEligible (t : Transformer) (id : String) : Bool :=
  t.suffix.toList.isSuffixOf id.toList

/-- The pieces of the new text so far, the last first, if anything has
changed, and what was counted. -/
structure Progress where
  pieces? : Option (List Text)
  tally : Tally

/-- The new text, if anything has changed. -/
def Progress.text? (p : Progress) : Option Text :=
  p.pieces?.map fun pieces => pieces.reverse.flatten

/-- Takes in one segment of the source. -/
def Progress.absorb (t : Transformer) (source : Text) (before : Progress)
    (segment : Segment) : Progress :=
  match segment.kind with
  | .verbatim =>
    { before with pieces? := before.pieces?.map (segment.text :: ·) }
  | .prose =>
    let out := t.pipeline.run segment.text
    let tally := before.tally.merge out.tally
    match before.pieces? with
    | some pieces => ⟨some (out.text :: pieces), tally⟩
    | none =>
      if out.changed then
        ⟨some [out.text, Text.takeBytes segment.offset source], tally⟩
      else ⟨none, tally⟩

/-- Edits the prose of a document. The text is absent when no rule made a
substitution. -/
def edit (t : Transformer) (source : Text) : Progress :=
  (Segment.ofDocument source).foldl (Progress.absorb t source)
    ⟨none, .empty⟩

/-- Transforms one document. -/
def transform (t : Transformer) (source : Text) (id : String) : Outcome :=
  if t.isEligible id then
    let edited := t.edit source
    match edited.text? with
    | some text => .changed text edited.tally
    | none => .unchanged
  else .unchanged

end Transformer

end ComponentMarkdown
