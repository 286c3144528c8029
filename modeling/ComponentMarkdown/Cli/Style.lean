/-
Style: colours and bold type on a terminal that shows them. Without colour
every text stands as it is.
-/
namespace ComponentMarkdown.Cli

/-- How a text may stand out. -/
inductive Style where
  | red
  | green
  | cyan
  | bold
  deriving DecidableEq, Repr

namespace Style

/-- The number of a style in a control sequence. -/
def code : Style → String
  | .red => "31"
  | .green => "32"
  | .cyan => "36"
  | .bold => "1"

/-- A text in a style, if styles are shown. -/
def apply (style : Style) (shown : Bool) (s : String) : String :=
  if shown then "\x1b[" ++ style.code ++ "m" ++ s ++ "\x1b[0m" else s

/-- Whether a setting of the environment is on: any value but zero. -/
def isOn (setting : String) : Bool := setting != "0"

/-- Whether styles are shown. What forces them is heard first, then what
forbids them; otherwise they are for terminals, unless switched off. -/
def areShown (force forbid switch : Option String) (terminal : Bool) : Bool :=
  if force.any isOn then true
  else if forbid.isSome then false
  else switch.all isOn && terminal

end Style

end ComponentMarkdown.Cli
