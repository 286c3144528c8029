/-
How far a splice reaches. The characters of a text are told apart by the
piece each of them lies in (`Covers`). A splice whose replacements are as
long as what they stand for differs from the text only at places that lie in
a hit (`exists_covers_of_splice_ne`).

Where lengths change, a place of the text is none of the result, and what is
kept has to be said of stretches. The hits that are replaced, and all other
characters one by one, make up the text (`changes`). A stretch is left alone
if it is made of such characters (`Leaves`), which is so exactly if no hit
that is replaced reaches into it (`leaves_iff`). If no length changes, it
stands in the result at its place (`Leaves.exists_text_at`).
-/
import ComponentMarkdown.Proofs.Splice.Pieces

namespace ComponentMarkdown

variable {α : Type}

-- ============================================================== places

/-- A place in a text of two parts lies in the first or in the second. -/
theorem suffix_append_cases {r a b : Text} (h : r <:+ a ++ b) :
    (∃ x, x ≠ [] ∧ x <:+ a ∧ r = x ++ b) ∨ r <:+ b := by
  obtain ⟨before, h⟩ := h
  rcases List.append_eq_append_iff.1 h with ⟨x, rfl, rfl⟩ | ⟨x, -, rfl⟩
  · by_cases hx : x = []
    · rw [hx]
      exact Or.inr (List.suffix_refl b)
    · exact Or.inl ⟨x, hx, List.suffix_append before x, rfl⟩
  · exact Or.inr (List.suffix_append x r)

namespace Piece

/-- The text that some pieces cover. -/
def textOf (ps : List (Piece α)) : Text := ps.flatMap Piece.text

@[simp] theorem textOf_nil : textOf ([] : List (Piece α)) = [] := rfl

@[simp] theorem textOf_cons (p : Piece α) (ps : List (Piece α)) :
    textOf (p :: ps) = p.text ++ textOf ps := List.flatMap_cons

@[simp] theorem textOf_append (ps qs : List (Piece α)) :
    textOf (ps ++ qs) = textOf ps ++ textOf qs := List.flatMap_append

@[simp] theorem textOf_chars (t : Text) :
    textOf (t.map .char : List (Piece α)) = t := by
  induction t with
  | nil => rfl
  | cons c t ih =>
    rw [List.map_cons, textOf_cons, ih]
    rfl

/-- Whether the character at the place `i` of a text in pieces is the `k`-th
of the piece `p`. -/
def Covers (ps : List (Piece α)) (i : Nat) (p : Piece α) (k : Nat) : Prop :=
  ∃ before after, ps = before ++ p :: after
    ∧ i = (textOf before).length + k ∧ k < p.text.length

theorem Covers.cons {ps : List (Piece α)} {i k : Nat} {p : Piece α}
    (h : Covers ps i p k) (q : Piece α) :
    Covers (q :: ps) (q.text.length + i) p k := by
  obtain ⟨before, after, rfl, rfl, hk⟩ := h
  refine ⟨q :: before, after, rfl, ?_, hk⟩
  simp only [textOf_cons, List.length_append]
  omega

/-- No hit is among characters. -/
theorem exists_append_of_chars {t : Text} {ps qs rs : List (Piece α)}
    {h : Hit α} (heq : t.map .char ++ ps = qs ++ .hit h :: rs) :
    ∃ qs', qs = t.map .char ++ qs' ∧ ps = qs' ++ .hit h :: rs := by
  induction t generalizing qs with
  | nil => exact ⟨qs, rfl, heq⟩
  | cons c t ih =>
    cases qs with
    | nil => cases heq
    | cons q qs =>
      rw [List.map_cons, List.cons_append, List.cons_append,
        List.cons.injEq] at heq
      obtain ⟨rfl, heq⟩ := heq
      obtain ⟨qs', rfl, hps⟩ := ih heq
      exact ⟨qs', rfl, hps⟩

/-- Pieces are parted at a place that no hit reaches across. -/
theorem exists_append_of_textOf {ps : List (Piece α)} {u w : Text}
    (htext : textOf ps = u ++ w)
    (hplace : ∀ as h bs, ps = as ++ .hit h :: bs →
      h.taken.length + (textOf bs).length ≤ w.length
        ∨ w.length ≤ (textOf bs).length) :
    ∃ as bs, ps = as ++ bs ∧ textOf as = u ∧ textOf bs = w := by
  induction ps generalizing u with
  | nil =>
    rw [textOf_nil, eq_comm, List.append_eq_nil_iff] at htext
    obtain ⟨rfl, rfl⟩ := htext
    exact ⟨[], [], rfl, rfl, rfl⟩
  | cons p ps ih =>
    cases u with
    | nil => exact ⟨[], p :: ps, rfl, rfl, htext⟩
    | cons c u =>
      have hrest (as : List (Piece α)) (h : Hit α) (bs : List (Piece α))
          (heq : ps = as ++ .hit h :: bs) :=
        hplace (p :: as) h bs (by rw [heq, List.cons_append])
      rw [textOf_cons] at htext
      cases p with
      | char d =>
        obtain ⟨rfl, hbehind⟩ := List.cons.inj htext
        obtain ⟨as, bs, rfl, rfl, hbs⟩ := ih hbehind hrest
        exact ⟨.char d :: as, bs, rfl, rfl, hbs⟩
      | hit h =>
        -- a hit that starts before the place ends before it
        have hlength := congrArg List.length htext
        rw [text_hit, List.length_append, List.length_append,
          List.length_cons] at hlength
        have hle := hplace [] h ps rfl
        obtain ⟨x, hx⟩ : h.taken <+: c :: u :=
          List.prefix_of_prefix_length_le ⟨textOf ps, htext⟩
            (List.prefix_append _ w) (by rw [List.length_cons]; omega)
        rw [text_hit, ← hx, List.append_assoc, List.append_cancel_left_eq]
          at htext
        obtain ⟨as, bs, rfl, rfl, hbs⟩ := ih htext hrest
        exact ⟨.hit h :: as, bs, rfl, by rw [textOf_cons, text_hit, hx], hbs⟩

/-- Pieces without a hit are the characters of their text. -/
theorem eq_chars_of_no_hit {ps : List (Piece α)} (h : ∀ hit, .hit hit ∉ ps) :
    ps = (textOf ps).map .char := by
  induction ps with
  | nil => rfl
  | cons p ps ih =>
    cases p with
    | char c =>
      have hrest := ih fun hit hmem => h hit (List.mem_cons_of_mem _ hmem)
      conv => lhs; rw [hrest]
      rfl
    | hit g => exact absurd List.mem_cons_self (h g)

/-- A stretch of a text in pieces is made of characters if no hit reaches
into it. -/
theorem exists_chars_of_disjoint {ps : List (Piece α)}
    (hps : ∀ h, .hit h ∈ ps → h.taken ≠ []) {u t v : Text}
    (htext : textOf ps = u ++ (t ++ v))
    (hdisjoint : ∀ as h bs, ps = as ++ .hit h :: bs →
      h.taken.length + (textOf bs).length ≤ v.length
        ∨ t.length + v.length ≤ (textOf bs).length) :
    ∃ as bs, ps = as ++ (t.map .char ++ bs) ∧ textOf as = u
      ∧ textOf bs = v := by
  obtain ⟨as, rest, rfl, has, hrest⟩ :=
    exists_append_of_textOf htext fun as h bs heq => by
      have hor := hdisjoint as h bs heq
      rw [List.length_append]
      omega
  obtain ⟨mid, bs, rfl, rfl, rfl⟩ :=
    exists_append_of_textOf hrest fun as' h bs heq => by
      have hor := hdisjoint (as ++ as') h bs (by rw [heq, List.append_assoc])
      omega
  have hnone : ∀ hit, .hit hit ∉ mid := by
    intro hit hmem
    have hpos := List.length_pos_iff.2 (hps hit (List.mem_append_right as
      (List.mem_append_left bs hmem)))
    obtain ⟨front, rear, rfl⟩ := List.append_of_mem hmem
    have hor := hdisjoint (as ++ front) hit (rear ++ bs) (by simp)
    simp only [textOf_append, textOf_cons, text_hit, List.length_append] at hor
    omega
  exact ⟨as, bs, by rw [← eq_chars_of_no_hit hnone], has, rfl⟩

theorem covers_head (p : Piece α) (ps : List (Piece α)) {k : Nat}
    (hk : k < p.text.length) : Covers (p :: ps) k p k :=
  ⟨[], ps, rfl, by simp, hk⟩

end Piece

open Piece

namespace Scanner

variable (sc : Scanner α)

/-- The pieces of a text make the text. -/
theorem textOf_pieces (s : Text) : textOf (sc.pieces s) = s := by
  rw [textOf, List.flatMap_def, sc.pieces_flatten]

/-- Where replacements have the length of what they replace, the result
differs from the text only in hits. -/
theorem exists_covers_of_splice_ne {edit : Hit α → Edited}
    (hlen : ∀ {r h}, sc.scan r = some h →
      (spliced edit h).length = h.taken.length) {s : Text} {i : Nat}
    (hne : (sc.splice edit s).text[i]? ≠ s[i]?) :
    ∃ h k, Covers (sc.pieces s) i (.hit h) k
      ∧ (spliced edit h)[k]? ≠ h.taken[k]? := by
  induction s using sc.induction_on generalizing i with
  | nil =>
    rw [sc.splice_nil] at hne
    exact absurd rfl hne
  | hit s h hs ih =>
    obtain ⟨rest, rfl⟩ := sc.taken_isPrefix hs
    rw [sc.splice_of_hit hs] at hne
    rw [sc.pieces_of_hit hs]
    rw [List.drop_left] at hne ih ⊢
    by_cases hi : i < h.taken.length
    · rw [List.getElem?_append_left (by rw [hlen hs]; exact hi),
        List.getElem?_append_left hi] at hne
      exact ⟨h, i, covers_head _ _ hi, hne⟩
    · obtain ⟨j, rfl⟩ := Nat.exists_eq_add_of_le (Nat.le_of_not_lt hi)
      have hbehind : (spliced edit h).length ≤ h.taken.length + j := by
        rw [hlen hs]
        omega
      rw [List.getElem?_append_right hbehind,
        List.getElem?_append_right (by omega), hlen hs,
        Nat.add_sub_cancel_left] at hne
      obtain ⟨g, k, hcovers, hdiffers⟩ := ih hne
      exact ⟨g, k, hcovers.cons (.hit h), hdiffers⟩
  | char c rest hs ih =>
    rw [sc.splice_of_none hs] at hne
    rw [sc.pieces_of_none hs]
    cases i with
    | zero => exact absurd rfl hne
    | succ j =>
      obtain ⟨g, k, hcovers, hdiffers⟩ := ih hne
      have hnext := hcovers.cons (.char c)
      rw [text_char, List.length_singleton, Nat.add_comm] at hnext
      exact ⟨g, k, hnext, hdiffers⟩

-- ========================================================== stretches

/-- A piece as it counts for a splice: a hit that stays is its
characters. -/
def changedPiece (edit : Hit α → Edited) : Piece α → List (Piece α)
  | .char c => [.char c]
  | .hit h => if (edit h).count = 0 then h.taken.map .char else [.hit h]

/-- What a splice makes of a text: the hits that it replaces, and all other
characters. -/
def changes (edit : Hit α → Edited) (s : Text) : List (Piece α) :=
  (sc.pieces s).flatMap (changedPiece edit)

variable (edit : Hit α → Edited)

theorem changes_nil : sc.changes edit [] = [] := by
  unfold changes
  rw [sc.pieces_nil]
  rfl

/-- A character without a hit stays, -/
theorem changes_of_none {c : Char} {s : Text} (hs : sc.scan (c :: s) = none) :
    sc.changes edit (c :: s) = .char c :: sc.changes edit s := by
  unfold changes
  rw [sc.pieces_of_none hs]
  rfl

/-- and a hit is changed or stays, and what follows is looked at behind it. -/
theorem changes_of_hit {s : Text} {h : Hit α} (hs : sc.scan s = some h) :
    sc.changes edit s = changedPiece edit (.hit h)
      ++ sc.changes edit (s.drop h.taken.length) := by
  unfold changes
  rw [sc.pieces_of_hit hs, List.flatMap_cons]

variable {edit} in
/-- A hit that is not counted stays as characters. -/
theorem changedPiece_kept {h : Hit α} (hzero : (edit h).count = 0) :
    changedPiece edit (.hit h) = h.taken.map .char := if_pos hzero

variable {edit} in
theorem changedPiece_replaced {h : Hit α} (hcount : (edit h).count ≠ 0) :
    changedPiece edit (.hit h) = [.hit h] := if_neg hcount

theorem textOf_changedPiece (p : Piece α) :
    textOf (changedPiece edit p) = p.text := by
  cases p with
  | char c => rfl
  | hit h =>
    by_cases hzero : (edit h).count = 0
    · rw [changedPiece_kept hzero, textOf_chars, text_hit]
    · rw [changedPiece_replaced hzero, textOf_cons, textOf_nil,
        List.append_nil]

/-- What is changed and what stays make the text. -/
theorem textOf_changes (s : Text) : textOf (sc.changes edit s) = s := by
  have hpieces := sc.textOf_pieces s
  unfold textOf changes at *
  rw [List.flatMap_assoc]
  refine Eq.trans ?_ hpieces
  exact congrArg ((sc.pieces s).flatMap ·)
    (funext fun p => textOf_changedPiece edit p)

/-- A splice puts something in place of what is changed only. -/
theorem text_splice_changes (s : Text) :
    (sc.splice edit s).text
      = (sc.changes edit s).flatMap (splicedPiece edit) := by
  rw [sc.text_splice]
  unfold changes
  rw [List.flatMap_assoc]
  refine congrArg ((sc.pieces s).flatMap ·) (funext fun p => ?_)
  cases p with
  | char c => rfl
  | hit h =>
    by_cases hzero : (edit h).count = 0
    · rw [changedPiece_kept hzero, splicedPiece_chars, splicedPiece, spliced,
        if_pos hzero]
    · rw [changedPiece_replaced hzero, List.flatMap_singleton]

/-- Whether the stretch `t` of a text is left alone: all its characters stay,
between what becomes of the text before it and of that after it. -/
def Leaves (before t after : Text) : Prop :=
  ∃ ps qs, sc.changes edit (before ++ (t ++ after)) = ps ++ (t.map .char ++ qs)
    ∧ textOf ps = before ∧ textOf qs = after

variable {sc edit}

variable (sc edit)

/-- The hits that are replaced are taken at places the scanner comes to. -/
theorem changes_eq_append_iff {s r : Text} {h : Hit α} :
    (∃ ps qs, sc.changes edit s = ps ++ .hit h :: qs
        ∧ r = h.taken ++ textOf qs)
      ↔ sc.Visits s r ∧ sc.scan r = some h ∧ (edit h).count ≠ 0 := by
  constructor
  · rintro ⟨ps, qs, hs, rfl⟩
    induction s using sc.induction_on generalizing ps with
    | nil =>
      rw [changes_nil] at hs
      cases ps <;> cases hs
    | hit s g hscan ih =>
      rw [sc.changes_of_hit edit hscan] at hs
      by_cases hzero : (edit g).count = 0
      · rw [changedPiece_kept hzero] at hs
        obtain ⟨ps', -, hrest⟩ := exists_append_of_chars hs
        obtain ⟨hr, hh⟩ := ih ps' hrest
        exact ⟨.behind hscan hr, hh⟩
      · rw [changedPiece_replaced hzero, List.singleton_append] at hs
        cases ps with
        | nil =>
          obtain ⟨heq, rfl⟩ := List.cons.inj hs
          cases heq
          obtain ⟨rest, rfl⟩ := sc.taken_isPrefix hscan
          rw [textOf_changes, List.drop_left]
          exact ⟨.here _, hscan, hzero⟩
        | cons p ps =>
          obtain ⟨hr, hh⟩ := ih ps (List.cons.inj hs).2
          exact ⟨.behind hscan hr, hh⟩
    | char c rest hscan ih =>
      rw [sc.changes_of_none edit hscan] at hs
      cases ps with
      | nil => cases hs
      | cons p ps =>
        obtain ⟨hr, hh⟩ := ih ps (List.cons.inj hs).2
        exact ⟨.further hscan hr, hh⟩
  · rintro ⟨hr, hscan, hcount⟩
    induction hr with
    | here s =>
      obtain ⟨rest, rfl⟩ := sc.taken_isPrefix hscan
      refine ⟨[], sc.changes edit rest, ?_, by rw [textOf_changes]⟩
      rw [sc.changes_of_hit edit hscan, changedPiece_replaced hcount,
        List.drop_left]
      rfl
    | @behind s _ g hs _ ih =>
      obtain ⟨ps, qs, hchanges, hr⟩ := ih hscan
      refine ⟨changedPiece edit (.hit g) ++ ps, qs, ?_, hr⟩
      rw [sc.changes_of_hit edit hs, hchanges, List.append_assoc]
    | @further c _ _ hs _ ih =>
      obtain ⟨ps, qs, hchanges, hr⟩ := ih hscan
      refine ⟨.char c :: ps, qs, ?_, hr⟩
      rw [sc.changes_of_none edit hs, hchanges, List.cons_append]

/-- A stretch is left alone exactly if no hit that is replaced reaches into
it. -/
theorem leaves_iff {before t after : Text} :
    sc.Leaves edit before t after
      ↔ ∀ r h, sc.Visits (before ++ (t ++ after)) r → sc.scan r = some h →
        (edit h).count ≠ 0 →
        r.length ≤ after.length
          ∨ t.length + after.length + h.taken.length ≤ r.length := by
  constructor
  · rintro ⟨ps, qs, hchanges, -, rfl⟩ r h hr hscan hcount
    obtain ⟨as, bs, has, rfl⟩ :=
      (sc.changes_eq_append_iff edit).2 ⟨hr, hscan, hcount⟩
    rw [hchanges] at has
    rcases List.append_eq_append_iff.1 has with ⟨x, -, hx⟩ | ⟨x, -, hx⟩
    · obtain ⟨x', -, rfl⟩ := exists_append_of_chars hx
      left
      simp only [textOf_append, textOf_cons, text_hit, List.length_append]
      omega
    · cases x with
      | nil =>
        have hhead : t.map .char ++ qs = [] ++ .hit h :: bs := hx.symm
        obtain ⟨x', -, rfl⟩ := exists_append_of_chars hhead
        left
        simp only [textOf_append, textOf_cons, text_hit, List.length_append]
        omega
      | cons p x =>
        rw [List.cons_append, List.cons.injEq] at hx
        rw [hx.2]
        right
        simp only [textOf_append, textOf_chars, List.length_append]
        omega
  · intro hdisjoint
    have hps : ∀ h, .hit h ∈ sc.changes edit (before ++ (t ++ after)) →
        h.taken ≠ [] := by
      intro h hmem
      obtain ⟨as, bs, heq⟩ := List.append_of_mem hmem
      exact sc.taken_ne_nil
        ((sc.changes_eq_append_iff edit).1 ⟨as, bs, heq, rfl⟩).2.1
    refine exists_chars_of_disjoint hps (sc.textOf_changes edit _) ?_
    intro as h bs heq
    obtain ⟨hr, hscan, hcount⟩ :=
      (sc.changes_eq_append_iff edit).1 ⟨as, bs, heq, rfl⟩
    have hor := hdisjoint _ h hr hscan hcount
    rw [List.length_append] at hor
    omega

-- ============================================== lengths that stay

variable {sc edit}

/-- Replacements of the same length leave a text as long as it was. -/
theorem length_flatMap_splicedPiece {ps : List (Piece α)}
    (hps : ∀ h, .hit h ∈ ps →
      (spliced edit h).length = h.taken.length) :
    (ps.flatMap (splicedPiece edit)).length = (textOf ps).length := by
  induction ps with
  | nil => rfl
  | cons p ps ih =>
    have hrest := ih fun h hmem => hps h (List.mem_cons_of_mem p hmem)
    rw [List.flatMap_cons, textOf_cons, List.length_append,
      List.length_append, hrest]
    cases p with
    | char c => rfl
    | hit h =>
      rw [splicedPiece, text_hit, hps h List.mem_cons_self]

variable (hlen : ∀ {r : Text} {h : Hit α}, sc.scan r = some h →
  (spliced edit h).length = h.taken.length)

include hlen

/-- What becomes of the text before a place is as long as that text. -/
theorem Visits.exists_text {s r : Text} (hr : sc.Visits s r) :
    ∃ x, (sc.splice edit s).text = x ++ (sc.splice edit r).text
      ∧ x.length + r.length = s.length := by
  induction hr with
  | here s => exact ⟨[], rfl, by rw [List.length_nil, Nat.zero_add]⟩
  | @behind s r h hs _ ih =>
    obtain ⟨rest, rfl⟩ := sc.taken_isPrefix hs
    obtain ⟨x, htext, hlength⟩ := ih
    rw [List.drop_left] at htext hlength
    refine ⟨spliced edit h ++ x, ?_, ?_⟩
    · rw [sc.splice_of_hit hs, List.drop_left, htext, List.append_assoc]
    · rw [List.length_append, List.length_append, hlen hs]
      omega
  | @further c rest r hs _ ih =>
    obtain ⟨x, htext, hlength⟩ := ih
    refine ⟨c :: x, ?_, ?_⟩
    · rw [sc.splice_of_none hs, htext, List.cons_append]
    · rw [List.length_cons, List.length_cons]
      omega

/-- Where replacements have the length of what they replace, a stretch that
is left alone stands in the result where it stood. -/
theorem Leaves.exists_text_at {before t after : Text}
    (h : sc.Leaves edit before t after) :
    ∃ x y, (sc.splice edit (before ++ (t ++ after))).text = x ++ (t ++ y)
      ∧ x.length = before.length := by
  obtain ⟨ps, qs, hchanges, rfl, -⟩ := h
  have hkept : ∀ g, .hit g ∈ ps →
      (spliced edit g).length = g.taken.length := by
    intro g hmem
    obtain ⟨as, bs, rfl⟩ := List.append_of_mem hmem
    rw [List.append_assoc, List.cons_append] at hchanges
    exact hlen ((sc.changes_eq_append_iff edit).1 ⟨as, _, hchanges, rfl⟩).2.1
  refine ⟨ps.flatMap (splicedPiece edit), qs.flatMap (splicedPiece edit), ?_,
    length_flatMap_splicedPiece hkept⟩
  rw [text_splice_changes, hchanges, List.flatMap_append, List.flatMap_append,
    splicedPiece_chars]

end Scanner

end ComponentMarkdown
