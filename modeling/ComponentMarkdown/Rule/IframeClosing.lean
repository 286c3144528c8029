/-
Self-closing iframes. `<iframe src="…" />` becomes
`<iframe src="…"></iframe>`: an iframe must be closed by a tag of its own.
Blanks before the slash go, all other attributes stay. Other embeddable
tags are not touched.
-/
import ComponentMarkdown.Markup.Attributes
import ComponentMarkdown.Rule.Basic

namespace ComponentMarkdown

open Markup

namespace SelfClosingIframe

/-- How the tag starts. -/
def opening : Text := "<iframe".toList

theorem opening_ne_nil : opening ≠ [] := by decide

/-- The attributes of the self-closing iframe at the head of a text, with
the characters that end the tag. -/
def ofText? (s : Text) : Option (Text × Hit Unit) :=
  if opening.isPrefixOf s then
    attributes? (fun s => (selfClose? s).map fun t => ⟨t, ()⟩)
      (s.drop opening.length)
  else none

theorem taken_isPrefix {s a : Text} {h : Hit Unit}
    (hs : ofText? s = some (a, h)) : opening ++ a ++ h.taken <+: s := by
  unfold ofText? at hs
  split at hs
  · rename_i hp
    obtain ⟨rest, rfl⟩ := List.isPrefixOf_iff_prefix.1 hp
    rw [List.drop_left] at hs
    rw [List.append_assoc]
    refine (List.prefix_append_right_inj _).2
      (attributes?_isPrefix (fun {s h} hh => ?_) hs)
    obtain ⟨t, ht, rfl⟩ := Option.map_eq_some_iff.1 hh
    exact selfClose?_isPrefix ht
  · cases hs

/-- Finds self-closing iframes; reads their attributes. -/
def scanner : Scanner Text where
  scan s := (ofText? s).map fun r => ⟨opening ++ r.1 ++ r.2.taken, r.1⟩
  taken_ne_nil := by
    intro s h hs
    obtain ⟨r, -, rfl⟩ := Option.map_eq_some_iff.1 hs
    rw [List.append_assoc]
    exact fun he => opening_ne_nil (List.append_eq_nil_iff.1 he).1
  taken_isPrefix := by
    intro s h hs
    obtain ⟨⟨a, e⟩, hr, rfl⟩ := Option.map_eq_some_iff.1 hs
    exact taken_isPrefix hr

/-- The iframe with a closing tag. -/
def expanded (attributes : Text) : Text :=
  opening ++ attributes.trimEnd ++ "></iframe>".toList

end SelfClosingIframe

/-- Self-closing iframes to an opening and a closing tag. -/
def Rule.iframeClosing : Rule where
  name := "iframe-self-closing"
  description := "Expand <iframe ... /> to <iframe ...></iframe>"
  apply := SelfClosingIframe.scanner.replace fun h =>
    some (SelfClosingIframe.expanded h.value)

end ComponentMarkdown
