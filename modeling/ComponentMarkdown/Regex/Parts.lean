/-
Heights: how deeply the parts of a regular expression stand in one another.
A part without parts has the height zero, and every other one more than the
highest part in it. Nothing else about the parts is kept, since all that is
asked of an expression is whether it is one.
-/
namespace ComponentMarkdown.Regex

/-- Parts side by side: how many, and the height of the highest. -/
structure Parts where
  count : Nat
  height : Nat
  deriving DecidableEq, Repr

namespace Parts

/-- No parts. -/
def none : Parts := ⟨0, 0⟩

/-- Parts and one more of a height. -/
def add (p : Parts) (height : Nat) : Parts :=
  ⟨p.count + 1, max p.height height⟩

/-- The height of the whole that the parts make. One part alone is that
whole. -/
def whole (p : Parts) : Nat :=
  if p.count ≤ 1 then p.height else p.height + 1

end Parts

end ComponentMarkdown.Regex
