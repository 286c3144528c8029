/-
How far attribute casing reaches. The text keeps its length in bytes and its
letters but for their case, and it differs only in known names that the rule
reads in opening tags (`InKnownName`). The rule cuts a tag into quoted
values, known names and single characters, so such a place lies outside the
quoted values of its tag. A second application finds nothing to do
(`extent_apply_attributeCasing`).
-/
import ComponentMarkdown.Proofs.Rule.LoweredNames
import ComponentMarkdown.Proofs.Splice.Extent

namespace ComponentMarkdown

open Markup Text
open Piece (Covers)

namespace MixedCaseName

/-- Whether the character at a place of a text lies in a known name that is
read between the quoted values of an opening tag. -/
def InKnownName (s : Text) (i : Nat) : Prop :=
  ∃ tag k taken name j, Covers (openingTags.pieces s) i (.hit tag) k
    ∧ Covers (scanner.pieces tag.taken) k (.hit ⟨taken, some name⟩) j

/-- What stands for a tag is the tag with its names lowered. -/
theorem spliced_convertTag (tag : Hit Unit) :
    Scanner.spliced (fun h => convertTag h.taken) tag
      = lowerTag tag.taken := by
  unfold Scanner.spliced
  split
  · rename_i hzero
    exact (convertTag_of_count_zero hzero).symm
  · rfl

/-- A name takes as many characters in small letters. -/
theorem length_spliced_name {r : Text} {h : Hit (Option MixedCaseName)}
    (hs : scanner.scan r = some h) :
    (Scanner.spliced (fun h => Scanner.substitution h (h.value.map lowered))
      h).length = h.taken.length := by
  obtain ⟨taken, value⟩ := h
  rw [Scanner.spliced_substitution]
  cases value with
  | none => rfl
  | some name =>
    obtain ⟨m, -, heq⟩ := Option.map_eq_some_iff.1
      (passesQuoted_scanner.scan_of_some hs)
    cases heq
    show (name.lead ++ asciiLower name.name).length
      = (name.lead ++ name.name).length
    rw [List.length_append, length_asciiLower, List.length_append]

/-- In a tag, only the known names that are read change. -/
theorem exists_covers_of_lowerTag_ne {tag : Text} {k : Nat}
    (hne : (lowerTag tag)[k]? ≠ tag[k]?) :
    ∃ taken name j,
      Covers (scanner.pieces tag) k (.hit ⟨taken, some name⟩) j := by
  obtain ⟨⟨taken, value⟩, j, hcovers, hdiffers⟩ :=
    scanner.exists_covers_of_splice_ne length_spliced_name hne
  cases value with
  | none => exact absurd (by rw [Scanner.spliced_substitution]; rfl) hdiffers
  | some name => exact ⟨taken, name, j, hcovers⟩

/-- In a text, only known names in its opening tags change. -/
theorem inKnownName_of_lowerNames_ne {s : Text} {i : Nat}
    (hne : (lowerNames s)[i]? ≠ s[i]?) : InKnownName s i := by
  have hlength {r : Text} {h : Hit Unit} (_ : openingTags.scan r = some h) :
      (Scanner.spliced (fun h => convertTag h.taken) h).length
        = h.taken.length := by
    rw [spliced_convertTag, length_lowerTag]
  obtain ⟨tag, k, hcovers, hdiffers⟩ :=
    openingTags.exists_covers_of_splice_ne hlength hne
  rw [spliced_convertTag] at hdiffers
  obtain ⟨taken, name, j, hname⟩ := exists_covers_of_lowerTag_ne hdiffers
  exact ⟨tag, k, taken, name, j, hcovers, hname⟩

end MixedCaseName

open MixedCaseName

/-- Attribute casing changes the case of letters alone, in known names
outside the quoted values of opening tags, and leaves nothing of it to a
second application. -/
theorem extent_apply_attributeCasing (s : Text) :
    (Rule.attributeCasing.apply s).text.byteLength = s.byteLength
      ∧ (Rule.attributeCasing.apply s).text.asciiLower = s.asciiLower
      ∧ (∀ i, (Rule.attributeCasing.apply s).text[i]? ≠ s[i]? →
        InKnownName s i)
      ∧ (Rule.attributeCasing.apply
        (Rule.attributeCasing.apply s).text).count = 0 := by
  have hcase : asciiLower (lowerNames s) = asciiLower s :=
    asciiLower_lowerNames s
  refine ⟨?_, hcase, fun i => inKnownName_of_lowerNames_ne,
    count_apply_lowerNames s⟩
  have hbytes : byteLength (lowerNames s) = byteLength s := by
    rw [← byteLength_asciiLower, hcase, byteLength_asciiLower]
  exact hbytes

end ComponentMarkdown
