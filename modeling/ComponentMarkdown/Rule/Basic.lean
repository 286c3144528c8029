/-
A rule: a named, total substitution on prose. A rule that recognises
nothing counts nothing.
-/
import ComponentMarkdown.Splice

namespace ComponentMarkdown

/-- A substitution on prose, with the name it is selected by. -/
structure Rule where
  name : String
  description : String
  apply : Text → Edited

end ComponentMarkdown
