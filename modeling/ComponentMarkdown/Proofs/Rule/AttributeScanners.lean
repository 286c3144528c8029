/-
Scanners that look for attributes. They pass over quoted values and read
nothing but what starts with a blank and the name behind it
(`StartsAttributes`). So they pass over visible characters
(`pieces_visible`), and over a blank that no name follows
(`pieces_blank`). An attribute is followed by a blank or by an end of the
tag, or by nothing (`MayFollow`).
-/
import ComponentMarkdown.Proofs.Rule.BraceAttributes
import ComponentMarkdown.Proofs.Rule.ClassAttribute
import ComponentMarkdown.Proofs.Rule.LoweredNames
import ComponentMarkdown.Proofs.Splice.Pieces

namespace ComponentMarkdown

namespace Markup

-- ============================================================ boundaries

/-- Whether a text can follow an attribute: it is empty, or starts with a
blank or with an end of the tag. -/
def MayFollow (s : Text) : Prop :=
  ∀ c ∈ s.head?, isBlank c = true ∨ c = '/' ∨ c = '>'

theorem mayFollow_of_isBlank {c : Char} (hc : isBlank c = true) (s : Text) :
    MayFollow (c :: s) := by
  intro d hd
  cases hd
  exact Or.inl hc

/-- Whether a text goes on with something that no attribute starts with
behind its blank. -/
def NoName (s : Text) : Prop :=
  ∀ c ∈ s.head?, c ≠ ':' ∧ BraceAttribute.isNameStart c = false

theorem noName_of_isBlank {c : Char} (hc : isBlank c = true) (s : Text) :
    NoName (c :: s) := by
  intro d hd
  cases hd
  refine ⟨?_, BraceAttribute.isNameStart_of_isBlank hc⟩
  rintro rfl
  exact absurd hc (by decide)

theorem noName_of_mayFollow {s : Text} (hs : MayFollow s) : NoName s := by
  intro c hc
  rcases hs c hc with hblank | rfl | rfl
  · exact noName_of_isBlank hblank [] c rfl
  · decide
  · decide

-- ============================================================== scanners

section

variable {β : Type} {sc : Scanner (Option β)} {scan : Text → Option (Hit β)}

/-- Whether a reader takes nothing but what starts with a blank and, behind
it, a name or a colon. -/
def StartsAttributes (scan : Text → Option (Hit β)) : Prop :=
  ∀ c s, (scan (c :: s)).isSome = true → isBlank c = true
    ∧ ∃ d r, s = d :: r ∧ (d = ':' ∨ BraceAttribute.isNameStart d = true)

variable (hsc : PassesQuoted sc scan) (hstarts : StartsAttributes scan)

include hstarts in
/-- Nothing is read in front of what is no name. -/
theorem scan_of_noName {s : Text} (hs : NoName s) (c : Char) :
    scan (c :: s) = none := by
  rw [← Option.not_isSome_iff_eq_none]
  intro hsome
  obtain ⟨-, d, r, rfl, hname⟩ := hstarts c s hsome
  obtain ⟨hcolon, hstart⟩ := hs d rfl
  rcases hname with rfl | hname
  · exact hcolon rfl
  · rw [hstart] at hname
    cases hname

include hsc

/-- A blank at which nothing is read is passed over. -/
theorem pieces_blank {c : Char} (hc : isBlank c = true) {s : Text}
    (h : scan (c :: s) = none) :
    sc.pieces (c :: s) = .char c :: sc.pieces s := by
  refine sc.pieces_of_none ?_
  rw [hsc.of_unquoted (quoted?_eq_none (isQuote_of_isBlank hc) s), h]
  rfl

include hstarts

/-- Visible characters that are no quotes are passed over. -/
theorem pieces_visible {t : Text}
    (ht : ∀ c ∈ t, isBlank c = false ∧ isQuote c = false) (s : Text) :
    sc.pieces (t ++ s) = t.map .char ++ sc.pieces s := by
  refine sc.pieces_append_of_none (fun c hc r => ?_) s
  obtain ⟨hblank, hquote⟩ := ht c hc
  have hnone : scan (c :: r) = none := by
    rw [← Option.not_isSome_iff_eq_none]
    intro hsome
    rw [(hstarts c r hsome).1] at hblank
    cases hblank
  rw [hsc.of_unquoted (quoted?_eq_none hquote r), hnone]
  rfl

/-- Blanks are passed over if nothing is read in front of what follows. -/
theorem pieces_blanks_of_none {t s : Text} (ht : ∀ c ∈ t, isBlank c = true)
    (h : ∀ c, isBlank c = true → scan (c :: s) = none) :
    sc.pieces (t ++ s) = t.map .char ++ sc.pieces s := by
  induction t with
  | nil => rfl
  | cons c t ih =>
    obtain ⟨hc, ht⟩ := List.forall_mem_cons.1 ht
    have hnone : scan (c :: (t ++ s)) = none := by
      cases t with
      | nil => exact h c hc
      | cons d t =>
        have hd := ht d List.mem_cons_self
        exact scan_of_noName hstarts (noName_of_isBlank hd _) c
    rw [List.cons_append, pieces_blank hsc hc hnone, ih ht]
    rfl

/-- Blanks before what is no name are passed over. -/
theorem pieces_blanks (blanks : List Blank) {s : Text} (hs : NoName s) :
    sc.pieces (blanks.map Subtype.val ++ s)
      = (blanks.map Subtype.val).map .char ++ sc.pieces s :=
  pieces_blanks_of_none hsc hstarts isBlank_of_mem fun c _ =>
    scan_of_noName hstarts hs c

end

end Markup

open Markup

-- ================================================================= rules

/-- What can follow an attribute ends its name. -/
theorem MixedCaseName.endsBefore_of_mayFollow {s : Text} (hs : MayFollow s) :
    endsBefore s = true := by
  cases s with
  | nil => rfl
  | cons c s =>
    show (isBlank c || c == '=' || c == '/' || c == '>') = true
    rcases hs c rfl with hc | rfl | rfl
    · rw [hc]
      rfl
    · rfl
    · rfl

theorem startsAttributes_brace :
    StartsAttributes fun s => (BraceAttribute.ofText? s).map
      fun a : BraceAttribute => Hit.mk a.written a := by
  intro c s hsome
  rw [Option.isSome_map, Option.isSome_iff_exists] at hsome
  obtain ⟨a, ha⟩ := hsome
  obtain ⟨⟨hlead, ⟨first, rest, hname, hfirst, -⟩, -, -⟩, after, hs⟩ :=
    BraceAttribute.ofText?_eq_some_iff.1 ha
  unfold BraceAttribute.written at hs
  rw [hname] at hs
  obtain ⟨rfl, rfl⟩ := List.cons.inj hs
  exact ⟨hlead, first, _, rfl, Or.inr hfirst⟩

theorem startsAttributes_mixedCase :
    StartsAttributes fun s => (MixedCaseName.ofText? s).map
      fun m : MixedCaseName => Hit.mk (m.lead ++ m.name) m := by
  intro c s hsome
  rw [Option.isSome_map, Option.isSome_iff_exists] at hsome
  obtain ⟨m, hm⟩ := hsome
  obtain ⟨rest, hs⟩ := MixedCaseName.taken_isPrefix hm
  obtain ⟨d, -, hd, hlead, hname, -⟩ := MixedCaseName.ofText?_spec hm
  rcases hlead with hlead | hlead
  · rw [hlead] at hs
    have hall : ∀ name ∈ MixedCaseName.known, name ≠ []
        ∧ ∀ c ∈ name.take 1, BraceAttribute.isNameStart c = true := by decide
    obtain ⟨hne, hfirst⟩ := hall m.name hname
    obtain ⟨first, more, hm'⟩ := List.exists_cons_of_ne_nil hne
    rw [hm'] at hs hfirst
    obtain ⟨rfl, rfl⟩ := List.cons.inj hs
    exact ⟨hd, first, _, rfl, Or.inr (hfirst first List.mem_cons_self)⟩
  · rw [hlead] at hs
    obtain ⟨rfl, rfl⟩ := List.cons.inj hs
    exact ⟨hd, ':', _, rfl, Or.inl rfl⟩

theorem startsAttributes_class : StartsAttributes ClassUse.ofText? := by
  intro c s hsome
  rw [ClassUse.ofText?] at hsome
  split at hsome
  · rename_i hc
    refine ⟨hc, ?_⟩
    split at hsome
    · cases hsome
    · rename_i name hname
      obtain ⟨rest, hrest⟩ := ClassUse.nameOf?_isPrefix hname
      obtain ⟨p, hp, hvalue⟩ := Option.map_eq_some_iff.1 hname
      have hall : ∀ p ∈ ClassUse.spellings, p.1 ≠ []
          ∧ ∀ c ∈ p.1.take 1, c = ':'
            ∨ BraceAttribute.isNameStart c = true := by decide
      obtain ⟨hne, hfirst⟩ := hall p (List.mem_of_find?_eq_some hp)
      obtain ⟨d, more, hd⟩ := List.exists_cons_of_ne_nil hne
      rw [hd] at hfirst
      refine ⟨d, more ++ rest, ?_, hfirst d List.mem_cons_self⟩
      rw [← hrest, ← hvalue, hd, List.cons_append]
  · cases hsome

end ComponentMarkdown
