/-
The two spellings of a name. A name of several words is written with hyphens
between them in kebab case, and with a capital at the start of each in Pascal
case. Kebab case finds the start of a word by the capital after a small letter
or digit, so it does not find one after a word of a single letter, which is a
capital itself: of the Pascal spelling it recovers all hyphens but those after
such words (`kebabCase_pascalSpelling`). The two spellings therefore name the
same element exactly if only the last word may have a single letter
(`spellings_agree_iff`).
-/
import ComponentMarkdown.Proofs.ElementSet.Names

namespace ComponentMarkdown

open Text

-- =========================================================== characters

/-- The characters that a word goes on with. -/
def isSmall (c : Char) : Bool := c.isLower || c.isDigit

/-- Where the small letters and digits are. -/
def smallCodes : List Nat := List.range' 97 26 ++ List.range' 48 10

/-- A character between two others has its code between theirs. -/
theorem toNat_between (low high : Char) {c : Char}
    (hc : (decide (c.val ≥ low.val) && decide (c.val ≤ high.val)) = true) :
    low.toNat ≤ c.toNat ∧ c.toNat ≤ high.toNat := by
  obtain ⟨hlow, hhigh⟩ := Bool.and_eq_true_iff.1 hc
  exact ⟨UInt32.le_iff_toNat_le.1 (of_decide_eq_true hlow),
    UInt32.le_iff_toNat_le.1 (of_decide_eq_true hhigh)⟩

theorem mem_smallLetters {c : Char} (hc : c.isLower = true) :
    c.toNat ∈ List.range' 97 26 := by
  have hbetween : 97 ≤ c.toNat ∧ c.toNat ≤ 122 :=
    toNat_between 'a' 'z' hc
  rw [List.mem_range'_1]
  omega

theorem mem_smallCodes {c : Char} (hc : isSmall c = true) :
    c.toNat ∈ smallCodes := by
  rw [smallCodes, List.mem_append]
  rcases Bool.or_eq_true_iff.1 hc with hlower | hdigit
  · exact Or.inl (mem_smallLetters hlower)
  · have hbetween : 48 ≤ c.toNat ∧ c.toNat ≤ 57 :=
      toNat_between '0' '9' hdigit
    refine Or.inr (List.mem_range'_1.2 ?_)
    omega

/-- What holds of the small letters and digits one by one. -/
theorem eq_of_isSmall {β : Type} {f : Char → β} {b : β}
    (hf : ∀ n ∈ smallCodes, f (Char.ofNat n) = b) {c : Char}
    (hc : isSmall c = true) : f c = b := by
  have h := hf c.toNat (mem_smallCodes hc)
  rwa [Char.ofNat_toNat] at h

theorem isUpper_of_isSmall {c : Char} (hc : isSmall c = true) :
    c.isUpper = false :=
  eq_of_isSmall (by decide +kernel) hc

theorem isBlank_of_isSmall {c : Char} (hc : isSmall c = true) :
    isBlank c = false :=
  eq_of_isSmall (by decide +kernel) hc

theorem capital_of_isLower {c : Char} (hc : c.isLower = true) :
    c.toUpper.isUpper = true ∧ c.toUpper.toLower = c := by
  have hall : ∀ n ∈ List.range' 97 26,
      (Char.ofNat n).toUpper.isUpper = true
        ∧ (Char.ofNat n).toUpper.toLower = Char.ofNat n := by
    decide +kernel
  have h := hall c.toNat (mem_smallLetters hc)
  rwa [Char.ofNat_toNat] at h

-- ================================================================ words

/-- A word of a name: a small letter, then small letters and digits. -/
structure Word where
  first : Char
  rest : Text
  first_small : first.isLower = true
  rest_small : ∀ c ∈ rest, isSmall c = true

namespace Word

/-- The word as it is. -/
def text (w : Word) : Text := w.first :: w.rest

/-- The word with a capital at its start. -/
def capitalised (w : Word) : Text := w.first.toUpper :: w.rest

theorem isSmall_of_mem_text {w : Word} {c : Char} (h : c ∈ w.text) :
    isSmall c = true := by
  rcases List.mem_cons.1 h with rfl | h
  · exact Bool.or_eq_true_iff.2 (Or.inl w.first_small)
  · exact w.rest_small c h

theorem isBlank_of_mem_capitalised {w : Word} {c : Char}
    (h : c ∈ w.capitalised) : isBlank c = false := by
  rcases List.mem_cons.1 h with rfl | h
  · obtain ⟨-, hlower⟩ := capital_of_isLower w.first_small
    rw [← isBlank_toLower, hlower]
    exact isBlank_of_isSmall (isSmall_of_mem_text List.mem_cons_self)
  · exact isBlank_of_isSmall (w.rest_small c h)

/-- Words in a row, each but the last with something behind it. -/
def joined (behind : Word → Text) : List Word → Text
  | [] => []
  | [w] => w.text
  | w :: next :: rest => w.text ++ behind w ++ joined behind (next :: rest)

/-- The name with hyphens between its words. -/
def kebabSpelling (words : List Word) : Text := joined (fun _ => ['-']) words

/-- The name with a capital at the start of each word. -/
def pascalSpelling (words : List Word) : Text := words.flatMap capitalised

/-- The name as kebab case recovers it from the Pascal spelling: there is no
hyphen behind a word of a single letter. -/
def recovered (words : List Word) : Text :=
  joined (fun w => if w.rest.isEmpty then [] else ['-']) words

/-- Only the last of the words may be a single letter. -/
def Recoverable (words : List Word) : Prop :=
  ∀ w ∈ words.dropLast, w.rest ≠ []

-- ============================================================ spellings

theorem kebabSpelling_cons (w next : Word) (rest : List Word) :
    kebabSpelling (w :: next :: rest)
      = w.text ++ ['-'] ++ kebabSpelling (next :: rest) := rfl

theorem recovered_cons (w next : Word) (rest : List Word) :
    recovered (w :: next :: rest)
      = w.text ++ (if w.rest.isEmpty then [] else ['-'])
        ++ recovered (next :: rest) := rfl

theorem exists_of_mem_joined {behind : Word → Text} {words : List Word}
    {c : Char} (h : c ∈ joined behind words) :
    ∃ w ∈ words, c ∈ w.text ∨ c ∈ behind w := by
  induction words with
  | nil => cases h
  | cons w words ih =>
    cases words with
    | nil => exact ⟨w, List.mem_cons_self, Or.inl h⟩
    | cons next rest =>
      rw [joined, List.mem_append, List.mem_append] at h
      rcases h with h | h
      · exact ⟨w, List.mem_cons_self, h⟩
      · obtain ⟨v, hv, hmem⟩ := ih h
        exact ⟨v, List.mem_cons_of_mem w hv, hmem⟩

theorem isSmall_or_of_mem_kebabSpelling {words : List Word} {c : Char}
    (h : c ∈ kebabSpelling words) : isSmall c = true ∨ c = '-' := by
  obtain ⟨w, -, h | h⟩ := exists_of_mem_joined h
  · exact Or.inl (isSmall_of_mem_text h)
  · exact Or.inr (List.mem_singleton.1 h)

/-- Kebab case keeps a name that is spelled in it. -/
theorem kebabCase_kebabSpelling (words : List Word) :
    kebabCase (kebabSpelling words) = kebabSpelling words := by
  refine kebabFrom_of_no_capital (fun c hc => ?_) false
  rcases isSmall_or_of_mem_kebabSpelling hc with hsmall | rfl
  · exact isUpper_of_isSmall hsmall
  · rfl

theorem trim_kebabSpelling (words : List Word) :
    (kebabSpelling words).trim = kebabSpelling words := by
  refine trim_of_visible fun c hc => ?_
  rcases isSmall_or_of_mem_kebabSpelling hc with hsmall | rfl
  · exact isBlank_of_isSmall hsmall
  · rfl

theorem trim_pascalSpelling (words : List Word) :
    (pascalSpelling words).trim = pascalSpelling words := by
  refine trim_of_visible fun c hc => ?_
  obtain ⟨w, -, hc⟩ := List.mem_flatMap.1 hc
  exact isBlank_of_mem_capitalised hc

-- ============================================================= recovery

/-- Small letters and digits stay, and what follows them is after one. -/
theorem kebabFrom_small {l : Text} (hl : ∀ c ∈ l, isSmall c = true)
    (afterSmall : Bool) (t : Text) :
    kebabFrom afterSmall (l ++ t)
      = l ++ kebabFrom (afterSmall || !l.isEmpty) t := by
  induction l generalizing afterSmall with
  | nil => rw [List.nil_append, List.nil_append, List.isEmpty_nil,
      Bool.not_true, Bool.or_false]
  | cons c l ih =>
    obtain ⟨hc, hl⟩ := List.forall_mem_cons.1 hl
    rw [List.cons_append, kebabFrom_other (isUpper_of_isSmall hc), ← isSmall,
      hc, ih hl, Bool.true_or, List.isEmpty_cons, Bool.not_false,
      Bool.or_true]
    rfl

/-- A capitalised word becomes the word, and what follows it is after a small
letter or digit exactly if the word has more than one character. -/
theorem kebabFrom_capitalised (w : Word) (afterSmall : Bool) (t : Text) :
    kebabFrom afterSmall (w.capitalised ++ t)
      = (if afterSmall then ['-'] else []) ++ w.text
        ++ kebabFrom (!w.rest.isEmpty) t := by
  obtain ⟨hupper, hlower⟩ := capital_of_isLower w.first_small
  rw [capitalised, List.cons_append, kebabFrom_capital hupper, hlower,
    kebabFrom_small w.rest_small, Bool.false_or, List.append_assoc]
  rfl

theorem kebabFrom_pascalSpelling (w : Word) (words : List Word)
    (afterSmall : Bool) :
    kebabFrom afterSmall (pascalSpelling (w :: words))
      = (if afterSmall then ['-'] else []) ++ recovered (w :: words) := by
  induction words generalizing w afterSmall with
  | nil =>
    rw [pascalSpelling, List.flatMap_cons, kebabFrom_capitalised]
    exact List.append_nil _
  | cons next rest ih =>
    rw [pascalSpelling, List.flatMap_cons, kebabFrom_capitalised,
      ← pascalSpelling, ih, recovered_cons]
    cases w.rest.isEmpty <;> simp

/-- Of the Pascal spelling, kebab case recovers the name but for the hyphens
behind single letters. -/
theorem kebabCase_pascalSpelling (words : List Word) :
    kebabCase (pascalSpelling words) = recovered words := by
  cases words with
  | nil => rfl
  | cons w words => exact kebabFrom_pascalSpelling w words false

/-- All of the name is recovered exactly if only the last word may be a single
letter. -/
theorem recovered_eq_iff (words : List Word) :
    recovered words = kebabSpelling words ↔ Recoverable words := by
  unfold Recoverable
  induction words with
  | nil => exact iff_of_true rfl fun w h => absurd h List.not_mem_nil
  | cons w words ih =>
    cases words with
    | nil => exact iff_of_true rfl fun w h => absurd h List.not_mem_nil
    | cons next rest =>
      rw [List.dropLast_cons_of_ne_nil (List.cons_ne_nil next rest),
        List.forall_mem_cons, ← ih, recovered_cons, kebabSpelling_cons,
        List.append_assoc, List.append_assoc, List.append_cancel_left_eq]
      by_cases hrest : w.rest = []
      · -- without the hyphen, the next word would have to start with one
        refine iff_of_false ?_ fun h => h.1 hrest
        rw [hrest, if_pos List.isEmpty_nil, List.nil_append]
        intro heq
        have hfirst : (recovered (next :: rest)).head? = some next.first := by
          unfold recovered
          cases rest <;> rfl
        rw [heq] at hfirst
        have hlower := next.first_small
        rw [← Option.some.inj hfirst] at hlower
        cases hlower
      · rw [if_neg (by simpa using hrest), and_iff_right hrest,
          List.append_cancel_left_eq]

-- ================================================================= sets

theorem keptName_kebabSpelling (words : List Word) :
    keptName (String.ofList (kebabSpelling words)) = kebabSpelling words := by
  rw [keptName, String.toList_ofList, trim_kebabSpelling,
    kebabCase_kebabSpelling]

theorem keptName_pascalSpelling (words : List Word) :
    keptName (String.ofList (pascalSpelling words)) = recovered words := by
  rw [keptName, String.toList_ofList, trim_pascalSpelling,
    kebabCase_pascalSpelling]

theorem kebabSpelling_ne_nil (w : Word) (words : List Word) :
    kebabSpelling (w :: words) ≠ [] := by
  unfold kebabSpelling
  cases words <;> exact List.cons_ne_nil _ _

/-- The set of a name holds the name. -/
theorem contains_add_kebabSpelling (w : Word) (words : List Word) :
    (ElementSet.empty.add (String.ofList (kebabSpelling (w :: words)))).contains
      (String.ofList (kebabSpelling (w :: words))) = true := by
  refine ElementSet.contains_add_iff.2 (Or.inr ?_)
  rw [keptName_kebabSpelling, String.toList_ofList, kebabCase_kebabSpelling]
  exact ⟨kebabSpelling_ne_nil w words, rfl⟩

/-- A set takes the Pascal spelling of a name for the name that is recovered
from it. So it takes both spellings for the same, when it is asked for a name
as well as when one is added, exactly if only the last word may be a single
letter. -/
theorem spellings_agree_iff (words : List Word) :
    let kebab := String.ofList (kebabSpelling words)
    let pascal := String.ofList (pascalSpelling words)
    (∀ s : ElementSet,
      s.contains pascal = s.contains (String.ofList (recovered words)))
    ∧ ((∀ s : ElementSet, s.contains kebab = s.contains pascal)
      ↔ Recoverable words)
    ∧ ((∀ s : ElementSet, s.add kebab = s.add pascal)
      ↔ Recoverable words) := by
  intro kebab pascal
  have hpascal (s : ElementSet) :
      s.contains pascal = s.contains (String.ofList (recovered words)) := by
    rw [← s.contains_kebabCase pascal, String.toList_ofList,
      kebabCase_pascalSpelling]
  have hnone (tag : String) : ¬ElementSet.empty.contains tag = true :=
    Bool.false_ne_true
  rw [← recovered_eq_iff]
  refine ⟨hpascal, ⟨fun h => ?_, fun h s => ?_⟩, fun h => ?_, fun h s => ?_⟩
  · cases words with
    | nil => rfl
    | cons w words =>
      -- asked of the set of the name alone
      have hself := contains_add_kebabSpelling w words
      rw [h, ElementSet.contains_add_iff, or_iff_right (hnone _),
        String.toList_ofList, kebabCase_pascalSpelling,
        keptName_kebabSpelling] at hself
      exact hself.2
  · rw [hpascal, h]
  · cases words with
    | nil => rfl
    | cons w words =>
      have hself := contains_add_kebabSpelling w words
      rw [h, ElementSet.contains_add_iff, or_iff_right (hnone _),
        String.toList_ofList, kebabCase_kebabSpelling,
        keptName_pascalSpelling] at hself
      exact hself.2.symm
  · refine ElementSet.add_eq_of_keptName ?_ s
    rw [keptName_kebabSpelling, keptName_pascalSpelling, h]

/-- A name whose first word is a single letter. -/
def vStack : List Word :=
  [⟨'v', [], by decide, by decide⟩,
    ⟨'s', ['t', 'a', 'c', 'k'], by decide, by decide⟩]

/-- Its hyphen is lost in the Pascal spelling, so a set with the name does not
hold it in that spelling. -/
theorem spellings_vStack :
    String.ofList (kebabSpelling vStack) = "v-stack"
      ∧ String.ofList (pascalSpelling vStack) = "VStack"
      ∧ (ElementSet.ofNames ["v-stack"]).contains "v-stack" = true
      ∧ (ElementSet.ofNames ["v-stack"]).contains "VStack" = false := by
  decide +kernel

end Word

end ComponentMarkdown
