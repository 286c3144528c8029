/-
Log filters: which entries are shown. A filter is a list of directives with
commas between; for an entry, the one that goes before all others about it
decides.
-/
import ComponentMarkdown.Cli.LogDirective

namespace ComponentMarkdown.Cli

/-- Directives about entries, one per subject at most. -/
structure LogFilter where
  directives : List LogDirective
  deriving DecidableEq, Repr

namespace LogFilter

/-- Adds a directive, in place of an earlier one for the same subject. -/
def add (f : LogFilter) (d : LogDirective) : LogFilter :=
  ⟨d :: f.directives.filter (!·.sameSubject d)⟩

/-- The filter where none is asked for: what the program reports about its
work. -/
def standard : LogFilter :=
  ⟨[⟨some Log.programTarget.toList, none, none, Log.Level.info.detail⟩]⟩

/-- Errors only. -/
def errorsOnly : LogFilter := ⟨[.ofDetail Log.Level.error.detail]⟩

/-- The directives between commas. -/
def parts : Text → List Text
  | [] => [[]]
  | c :: rest =>
    if c = ',' then [] :: parts rest
    else
      match parts rest with
      | [] => [[c]]
      | part :: more => (c :: part) :: more

/-- Reads a filter; a text that is none asks for the standard one, and one
without directives for errors only. -/
def ofString (s : String) : LogFilter :=
  match ((parts s.toList).filter (!·.isEmpty)).mapM LogDirective.ofText? with
  | none => standard
  | some [] => errorsOnly
  | some ds => (ds.filter (!·.concernsSpans)).foldl add ⟨[]⟩

/-- The filter that the environment asks for, if it does. -/
def ofSetting : Option String → LogFilter
  | none => standard
  | some s => ofString s

/-- The one of two directives that goes before the other, if there are
two. -/
def foremost : Option LogDirective → LogDirective → Option LogDirective
  | none, d => some d
  | some best, d => if d.outranks best then some d else some best

/-- Whether an entry is shown. -/
def shows (f : LogFilter) (e : Log.Entry) : Bool :=
  match (f.directives.filter (·.concerns e)).foldl foremost none with
  | none => false
  | some d => e.level.detail ≤ d.detail

end LogFilter

end ComponentMarkdown.Cli
