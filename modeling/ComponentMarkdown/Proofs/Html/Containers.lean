/-
Containers as HTML reads them. The opening tag of a container has the class
of its kind with the merged classes, and behind it whatever HTML reads in
the attributes that were kept (`startTag?_container`). The classes are
written in double quotes and hold none
(`ClassAttribute.not_mem_of_static`), so they end where they should, and
nothing that follows is lost.
-/
import ComponentMarkdown.Proofs.Html.Attributes
import ComponentMarkdown.Proofs.Rule.ClassAttribute
import ComponentMarkdown.Proofs.TaggedText.Rewriting

namespace ComponentMarkdown

open Markup

/-- Classes that can be merged hold no double quote. -/
theorem ClassAttribute.not_mem_of_static {attributes classes others : Text}
    (h : ofAttributes attributes = .static classes others) :
    '"' ∉ classes := by
  unfold ofAttributes at h
  dsimp only at h
  split at h
  · cases h
  · rename_i u huses
    split at h
    · rename_i classes' hstatic
      cases h
      have hu : u ∈ (ClassUse.scanner.pieces attributes).filterMap use? := by
        rw [huses]
        exact List.mem_cons_self
      obtain ⟨p, hp, huse⟩ := List.mem_filterMap.1 hu
      obtain ⟨r, k, hk, rfl, -⟩ := ofText?_of_use? hp huse
      exact ClassUse.not_mem_of_static? hk hstatic
    · cases h
  · cases h

namespace Html

open State
open TaggedText (containerClass)

/-- The classes of a container: those of its kind, and the merged ones. -/
def containerClasses (k : CalloutKind) (classes : Text) : Text :=
  "callout ".toList ++ k.className ++ addedClasses classes

theorem reads_containerClass (k : CalloutKind)
    (classes : TaggedText.Classes) :
    between.Reads (containerClass k classes).written
      [⟨"class".toList, containerClasses k classes.val⟩] between := by
  have hspaced : Spaced (.attr (containerClass k classes)) := by
    refine ⟨(by decide : isSpace ' ' = true), fun v hv b hb => ?_⟩
    cases hv
    cases hb
  exact reads_assigned hspaced rfl

/-- HTML reads a container as a `div` with the class of the container,
followed by whatever it reads in the attributes that were kept. -/
theorem startTag?_container (k : CalloutKind) {classes : Text}
    (hclasses : '"' ∉ classes) (others s : Text) :
    startTag? (k.container classes others ++ s)
      = (between.attributes? (others ++ '>' :: s)).map fun more =>
        ⟨"div".toList,
          ⟨"class".toList, containerClasses k classes⟩ :: more⟩ := by
  have hwritten : k.container classes others ++ s
      = '<' :: 'd' :: ("iv".toList
        ++ ((containerClass k ⟨classes, hclasses⟩).written
          ++ (others ++ '>' :: s))) := by
    have hopening : "<div class=\"callout ".toList
        = '<' :: 'd' :: ("iv".toList ++ ' ' :: ("class".toList
          ++ '=' :: '"' :: "callout ".toList)) := by decide
    unfold CalloutKind.container
    rw [hopening]
    simp [containerClass, TaggedText.Attribute.written,
      TaggedText.Attribute.head, TaggedText.Attribute.ending,
      TaggedText.Assigned.written, TaggedText.QuotedValue.written]
  have hbehind : ∀ c ∈ ((containerClass k ⟨classes, hclasses⟩).written
      ++ (others ++ '>' :: s)).head?, inTagName c = false := by
    intro c hc
    cases hc
    exact (by decide : inTagName ' ' = false)
  rw [hwritten, startTag?_append (by decide) (by decide) hbehind,
    reads_containerClass k ⟨classes, hclasses⟩, Option.map_map]
  rfl

end Html

end ComponentMarkdown
