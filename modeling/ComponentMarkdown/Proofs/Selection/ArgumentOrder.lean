/-
Whether the order of the arguments matters. Any order is accepted if one
is, and comes to the same paths. But of several spellings of a path only
the first is held against what the settings leave out, and the order
decides which one that is: behind `docs//a.md` the spelling `docs/a.md` is
dropped before it is seen to be left out.

So the documents selected are the same in every order just if the arguments
agree (`Agree`): of no path does one argument come first upon a spelling
that is left out and another upon one that is not
(`select_perm_iff_agree`).
-/
import ComponentMarkdown.Proofs.Selection.Documents

namespace ComponentMarkdown.Selection

open Files Files.Path

/-- Whether some spelling of a path is among some. -/
def Names (paths : List String) (path : String) : Prop :=
  ∃ p ∈ paths, same p path = true

/-- The first spelling of a path that an argument comes to. -/
def spelling? (d : Disk) (path argument : String) : Option String :=
  (expansion d argument).find? (same · path)

/-- Whether all arguments that come to a path come first to spellings that
are left out, or all to spellings that are not. -/
def Agree (d : Disk) (s : Settings) (arguments : List String) : Prop :=
  ∀ path, ∀ a ∈ arguments, ∀ b ∈ arguments, ∀ p q,
    spelling? d path a = some p → spelling? d path b = some q →
      s.excludes p = s.excludes q

variable {d : Disk} {s : Settings} {arguments others : List String}

-- ================================================ the spelling that counts

/-- The first spelling among those of all arguments is that of the first
argument that has one. -/
theorem find?_expansions (path : String) :
    (expansions d arguments).find? (same · path)
      = arguments.findSome? (spelling? d path) := by
  unfold expansions
  rw [List.find?_flatMap]
  rfl

/-- A path is among the documents if the first of its spellings is not left
out. -/
theorem names_documents_iff {paths : List String} {path : String} :
    Names (documents s paths) path
      ↔ ∃ p, paths.find? (same · path) = some p ∧ s.excludes p = false := by
  constructor
  · rintro ⟨p, hp, hsame⟩
    obtain ⟨hfirst, hkept⟩ := mem_documents_iff.1 hp
    unfold IsFirst at hfirst
    rw [same_congr hsame] at hfirst
    exact ⟨p, hfirst, hkept⟩
  · rintro ⟨p, hp, hkept⟩
    obtain ⟨hfirst, hsame⟩ := isFirst_of_find? hp
    exact ⟨p, mem_documents_iff.2 ⟨hfirst, hkept⟩, hsame⟩

theorem names_iff {path : String} :
    Names (documents s (expansions d arguments)) path
      ↔ ∃ p, arguments.findSome? (spelling? d path) = some p
        ∧ s.excludes p = false := by
  rw [names_documents_iff, find?_expansions]

/-- The spelling of an argument counts if that argument comes first. -/
theorem names_cons_iff {path argument p : String} {rest : List String}
    (h : spelling? d path argument = some p) :
    Names (documents s (expansions d (argument :: rest))) path
      ↔ s.excludes p = false := by
  rw [names_iff, List.findSome?_cons, h]
  simp

-- ======================================================== agreed arguments

/-- Arguments that agree select a document wherever they come to it, unless
they leave it out. -/
theorem Agree.names_of_names (h : Agree d s arguments) {path : String}
    (hperm : others.Perm arguments)
    (hnames : Names (documents s (expansions d arguments)) path) :
    Names (documents s (expansions d others)) path := by
  obtain ⟨p, hp, hkept⟩ := names_iff.1 hnames
  obtain ⟨a, ha, hap⟩ := List.exists_of_findSome?_eq_some hp
  have hsome : (others.findSome? (spelling? d path)).isSome := by
    rw [List.findSome?_isSome_iff]
    exact ⟨a, hperm.mem_iff.2 ha, by rw [hap]; rfl⟩
  obtain ⟨q, hq⟩ := Option.isSome_iff_exists.1 hsome
  obtain ⟨b, hb, hbq⟩ := List.exists_of_findSome?_eq_some hq
  refine names_iff.2 ⟨q, hq, ?_⟩
  rw [h path b (hperm.mem_iff.1 hb) a ha q p hbq hap]
  exact hkept

theorem Agree.perm (h : Agree d s arguments) (hperm : others.Perm arguments) :
    Agree d s others :=
  fun path a ha b hb =>
    h path a (hperm.mem_iff.1 ha) b (hperm.mem_iff.1 hb)

/-- If every order selects the same documents, the arguments agree: either
of two can be put first. -/
theorem agree_of_names
    (h : ∀ others, others.Perm arguments → ∀ path,
      (Names (documents s (expansions d others)) path
        ↔ Names (documents s (expansions d arguments)) path)) :
    Agree d s arguments := by
  intro path a ha b hb p q hp hq
  have hfirst := h _ (List.perm_cons_erase ha).symm path
  have hsecond := h _ (List.perm_cons_erase hb).symm path
  rw [names_cons_iff hp] at hfirst
  rw [names_cons_iff hq] at hsecond
  have hiff := hfirst.trans hsecond.symm
  cases hkept : s.excludes q with
  | false => exact hiff.2 hkept
  | true =>
    rw [← Bool.not_eq_false, hiff, hkept]
    nofun

/-- Every order of arguments that select something is accepted, and all
orders select the same documents if and only if the arguments agree. -/
theorem select_perm_iff_agree {paths : List String}
    (haccepted : (select d s arguments).2 = .ok paths) :
    (∀ others, others.Perm arguments →
        ∃ found, (select d s others).2 = .ok found)
      ∧ ((∀ others found, others.Perm arguments →
          (select d s others).2 = .ok found →
            ∀ path, Names found path ↔ Names paths path)
        ↔ Agree d s arguments) := by
  obtain ⟨haccepts, rfl⟩ := select_eq_ok_iff.1 haccepted
  have hselect : ∀ others, others.Perm arguments →
      (select d s others).2 = .ok (documents s (expansions d others)) :=
    fun others hperm => select_eq_ok_iff.2
      ⟨fun a ha => haccepts a (hperm.mem_iff.1 ha), rfl⟩
  refine ⟨fun others hperm => ⟨_, hselect others hperm⟩, ?_, ?_⟩
  · intro h
    exact agree_of_names fun others hperm =>
      h others _ hperm (hselect others hperm)
  · intro hagree others found hperm hfound path
    obtain ⟨-, rfl⟩ := select_eq_ok_iff.1 hfound
    exact ⟨(hagree.perm hperm).names_of_names hperm.symm,
      hagree.names_of_names hperm⟩

/-- A disk with one document in a directory. -/
def oneDraft : Disk :=
  ⟨.dir [("docs", .dir [("draft.md", .file (.text []))])], []⟩

/-- Settings that leave the document out, by one of its spellings. -/
def withoutDraft : Settings :=
  { Settings.standard with exclude := ["docs/draft.md"] }

/-- Two other spellings agree, so the document is selected in either
order. -/
theorem select_perm_iff_agree_oneDraft :
    (select oneDraft withoutDraft ["docs//draft.md", "docs/./draft.md"]).2
        = .ok ["docs//draft.md"]
      ∧ Agree oneDraft withoutDraft ["docs//draft.md", "docs/./draft.md"]
      ∧ ∀ others found,
        others.Perm ["docs//draft.md", "docs/./draft.md"] →
          (select oneDraft withoutDraft others).2 = .ok found →
            Names found "docs/draft.md" := by
  have haccepted : (select oneDraft withoutDraft
      ["docs//draft.md", "docs/./draft.md"]).2 = .ok ["docs//draft.md"] :=
    eq_ok_of_toOption (by decide +kernel)
  have hkept : ∀ argument ∈ ["docs//draft.md", "docs/./draft.md"],
      ∀ path p, spelling? oneDraft path argument = some p →
        withoutDraft.excludes p = false := by
    intro argument hmem path p hp
    have hp : p ∈ expansion oneDraft argument := List.mem_of_find?_eq_some hp
    have hall : ∀ argument ∈ ["docs//draft.md", "docs/./draft.md"],
        ∀ p ∈ expansion oneDraft argument, withoutDraft.excludes p = false := by
      decide +kernel
    exact hall argument hmem p hp
  have hagree : Agree oneDraft withoutDraft
      ["docs//draft.md", "docs/./draft.md"] :=
    fun path a ha b hb p q hp hq => by
      rw [hkept a ha path p hp, hkept b hb path q hq]
  refine ⟨haccepted, hagree, fun others found hperm hfound => ?_⟩
  rw [(select_perm_iff_agree haccepted).2.2 hagree others found hperm hfound]
  exact ⟨_, List.mem_singleton_self _, by decide +kernel⟩

/-- Which of two spellings comes first decides whether the document is
selected. -/
theorem select_order_oneDraft :
    ∃ found found',
      (select oneDraft withoutDraft ["docs/draft.md", "docs//draft.md"]).2
          = .ok found
        ∧ (select oneDraft withoutDraft ["docs//draft.md", "docs/draft.md"]).2
          = .ok found'
        ∧ ¬Names found "docs/draft.md" ∧ Names found' "docs/draft.md" :=
  ⟨[], ["docs//draft.md"], eq_ok_of_toOption (by decide +kernel),
    eq_ok_of_toOption (by decide +kernel), nofun,
    "docs//draft.md", List.mem_singleton_self _, by decide +kernel⟩

end ComponentMarkdown.Selection
