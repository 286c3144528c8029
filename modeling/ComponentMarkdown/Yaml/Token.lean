/-
The tokens of a YAML text: indicators, the starts and ends of collections,
and scalars. Blocks that only indentation marks have a start and an end of
their own here, so that what reads tokens need not look at columns.
-/
import ComponentMarkdown.Yaml.Property

namespace ComponentMarkdown.Yaml

/-- A token of a YAML text. -/
inductive Token where
  | directive (d : Directive)
  | documentStart
  | documentEnd
  | blockSequenceStart
  | blockMappingStart
  | blockEnd
  | flowSequenceStart
  | flowSequenceEnd
  | flowMappingStart
  | flowMappingEnd
  | blockEntry
  | flowEntry
  | key
  | value
  | alias (name : Text)
  | anchor (name : Text)
  | tag (handle : Text)
  /-- A scalar, and whether it is plain. -/
  | scalar (text : Text) (plain : Bool)
  deriving DecidableEq, Repr

end ComponentMarkdown.Yaml
