import Mathlib.Data.List.DropRight
import Mathlib.Data.List.Forall2
import GraphMapper.Proofs.Record.Levels

/-!
Dotted paths, and the levels that they speak of.

* `Text.pieces_eq_splitOnP`, `Text.not_of_mem_pieces`: how a text is cut;
* `Text.Trimmed`, `Text.trim_eq_iff`: what a text is without the blanks at its two ends;
* `Named`, `pathSegments_eq_iff`: the names that are written in a path;
* `sublist_expandPaths`, `expandPaths_congr`: the shorter of two levels comes first, and only the set of the
  paths counts;
* `expandPaths_levels` (**each level comes once, after those it builds on**).
-/

namespace GraphMapper

/-! ### Parts of a text -/

namespace Text

section

variable {cuts : Char → Bool} {text piece : List Char}

lemma pieces_eq_splitOnP : pieces cuts text = text.splitOnP cuts := by
  induction text with
  | nil => rfl
  | cons c rest ih =>
      obtain ⟨first, later, hrest⟩ := List.exists_cons_of_ne_nil (List.splitOnP_ne_nil cuts rest)
      rw [pieces, List.splitOnP_cons_eq_if_modifyHead, ih, hrest]
      rfl

/-- A text is not cut anywhere within a piece. -/
lemma not_of_mem_pieces (h : piece ∈ pieces cuts text) : ∀ c ∈ piece, ¬ cuts c := by
  rw [pieces_eq_splitOnP] at h
  induction text generalizing piece with
  | nil => simp_all
  | cons c rest ih =>
      obtain ⟨first, later, hrest⟩ := List.exists_cons_of_ne_nil (List.splitOnP_ne_nil cuts rest)
      rw [hrest] at ih
      rw [List.splitOnP_cons_eq_if_modifyHead, hrest] at h
      split_ifs at h with hcut
      · rcases List.mem_cons.mp h with rfl | h
        · simp
        · exact ih h
      · rcases List.mem_cons.mp h with rfl | h
        · exact List.forall_mem_cons.mpr ⟨hcut, ih List.mem_cons_self⟩
        · exact ih (List.mem_cons_of_mem _ h)

end

/-! ### Blanks at the ends -/

section

variable {text core front rest : List Char}

/-- What a text is without the blanks at its two ends. -/
def Trimmed (text core : List Char) : Prop :=
  ∃ front back, text = front ++ core ++ back ∧ (∀ c ∈ front, isBlank c) ∧ (∀ c ∈ back, isBlank c) ∧
    (∀ c ∈ core.head?, ¬ isBlank c) ∧ ∀ c ∈ core.getLast?, ¬ isBlank c

lemma dropWhile_append_eq (hfront : ∀ c ∈ front, isBlank c) (hrest : ∀ c ∈ rest.head?, ¬ isBlank c) :
    (front ++ rest).dropWhile isBlank = rest := by
  rw [List.dropWhile_append_of_pos hfront]
  cases rest with
  | nil => rfl
  | cons c rest => exact List.dropWhile_cons_of_neg (hrest c rfl)

lemma head?_dropWhile (text : List Char) : ∀ c ∈ (text.dropWhile isBlank).head?, ¬ isBlank c := by
  intro c hc
  have hnot := List.head?_dropWhile_not isBlank text
  rw [hc] at hnot
  exact Bool.not_eq_true _ ▸ hnot

lemma trimmed_trim (text : List Char) : Trimmed text (trim text) := by
  have htrim : trim text = (text.dropWhile isBlank).rdropWhile isBlank := rfl
  rw [htrim]
  refine ⟨text.takeWhile isBlank, (text.dropWhile isBlank).rtakeWhile isBlank, ?_,
    fun c => List.mem_takeWhile_imp, fun c => List.mem_rtakeWhile_imp, fun c hc => ?_, fun c hc => ?_⟩
  · rw [List.append_assoc, List.rdropWhile_append_rtakeWhile, List.takeWhile_append_dropWhile]
  · obtain ⟨back, hback⟩ := List.rdropWhile_prefix isBlank (l := text.dropWhile isBlank)
    refine head?_dropWhile text c ?_
    rw [← hback, List.head?_append, hc]
    rfl
  · obtain ⟨hne, rfl⟩ := List.mem_getLast?_eq_getLast hc
    exact List.rdropWhile_last_not isBlank _ hne

lemma Trimmed.trim_eq (h : Trimmed text core) : trim text = core := by
  obtain ⟨front, back, rfl, hfront, hback, hhead, hlast⟩ := h
  by_cases hne : core = []
  · subst hne
    have hblank : (front ++ [] ++ back).dropWhile isBlank = [] := by
      rw [List.dropWhile_eq_nil_iff]
      simpa [or_imp, forall_and] using ⟨hfront, hback⟩
    rw [trim, hblank]
    rfl
  · have hfirst : (front ++ core ++ back).dropWhile isBlank = core ++ back := by
      rw [List.append_assoc]
      refine dropWhile_append_eq hfront ?_
      rwa [List.head?_append_of_ne_nil _ hne]
    rw [trim, hfirst, List.reverse_append,
      dropWhile_append_eq (by simpa using hback) (by rwa [List.head?_reverse]), List.reverse_reverse]

lemma trim_eq_iff : trim text = core ↔ Trimmed text core :=
  ⟨fun h => h ▸ trimmed_trim text, Trimmed.trim_eq⟩

end

end Text

/-! ### Names in a path -/

/-- The names that are written in a dotted path: what stands between the points, without the blanks around
it.  Where there is nothing but blanks there is no name. -/
def Named (path : String) (names : List String) : Prop :=
  ∃ parts cores : List (List Char),
    path.toList = ['.'].intercalate parts ∧ (∀ part ∈ parts, '.' ∉ part) ∧
      List.Forall₂ Text.Trimmed parts cores ∧ names = (cores.filter (· ≠ [])).map String.ofList

lemma forall₂_trimmed_iff {parts cores : List (List Char)} :
    List.Forall₂ Text.Trimmed parts cores ↔ parts.map Text.trim = cores := by
  have htrimmed : Text.Trimmed = fun part core => Text.trim part = core :=
    funext fun part => funext fun core => propext Text.trim_eq_iff.symm
  rw [htrimmed, ← List.forall₂_map_left_iff (R := Eq), List.forall₂_eq_eq_eq]

lemma pathSegments_eq (path : String) :
    pathSegments path =
      (((path.toList.splitOn '.').map Text.trim).filter (· ≠ [])).map String.ofList := by
  have hsplit : Text.pieces (· = '.') path.toList = path.toList.splitOn '.' := by
    rw [Text.pieces_eq_splitOnP, List.splitOn_eq_splitOnP]
    rfl
  rw [pathSegments, hsplit, ← List.filterMap_eq_map (f := String.ofList), List.filterMap_filter]
  refine congrArg (List.filterMap · _) (funext fun segment => ?_)
  cases segment <;> rfl

/-- The names that are written in a path are those it is read as. -/
theorem pathSegments_eq_iff {path : String} {names : List String} :
    pathSegments path = names ↔ Named path names := by
  rw [pathSegments_eq]
  constructor
  · rintro rfl
    refine ⟨path.toList.splitOn '.', _, (List.intercalate_splitOn '.').symm, fun part hpart => ?_,
      forall₂_trimmed_iff.mpr rfl, rfl⟩
    rw [List.splitOn_eq_splitOnP, ← Text.pieces_eq_splitOnP] at hpart
    exact fun hpoint => Text.not_of_mem_pieces hpart '.' hpoint rfl
  · rintro ⟨parts, cores, hpath, hpoint, hcores, rfl⟩
    obtain rfl := forall₂_trimmed_iff.mp hcores
    rcases parts with _ | ⟨part, parts⟩
    · rw [hpath]
      rfl
    · rw [hpath, List.splitOn_intercalate '.' hpoint (List.cons_ne_nil _ _)]

/-! ### Levels -/

lemma pair_sublist {α : Type} {before : α → α → Prop} {items : List α} {a b : α}
    (h : items.Pairwise before) (ha : a ∈ items) (hb : b ∈ items) (hne : a ≠ b) (hnot : ¬ before b a) :
    [a, b].Sublist items := by
  obtain ⟨front, back, rfl⟩ := List.append_of_mem ha
  rcases List.mem_append.mp hb with hb | hb
  · exact absurd ((List.pairwise_append.mp h).2.2 b hb a List.mem_cons_self) hnot
  · have hback : b ∈ back := (List.mem_cons.mp hb).resolve_left hne.symm
    exact ((List.singleton_sublist.mpr hback).cons_cons a).trans (List.sublist_append_right _ _)

/-- Of two levels the shorter one comes first. -/
lemma sublist_expandPaths {paths : List String} {level later : List String}
    (hlevel : level ∈ expandPaths paths) (hlater : later ∈ expandPaths paths)
    (hlt : level.length < later.length) : [level, later].Sublist (expandPaths paths) :=
  pair_sublist (expandPaths_sorted paths) hlevel hlater (fun heq => hlt.ne (congrArg _ heq)) hlt.not_ge

/-- The levels of paths do not depend on the order of the paths, nor on how often one of them comes. -/
lemma expandPaths_congr {paths others : List String} (h : ∀ path, path ∈ others ↔ path ∈ paths) :
    expandPaths others = expandPaths paths := by
  obtain ⟨hsorted, hmem⟩ := foldl_insertPath (paths.flatMap fun path => beginnings (pathSegments path))
    List.Pairwise.nil
  obtain ⟨hsorted', hmem'⟩ := foldl_insertPath
    (others.flatMap fun path => beginnings (pathSegments path)) List.Pairwise.nil
  rw [expandPaths, expandPaths]
  congr 1
  refine hsorted'.eq_of_mem_iff hsorted fun level => ?_
  rw [hmem, hmem']
  simp only [List.mem_flatMap, h]

/-- **Each level comes once, after those it builds on**: the levels are the non-empty beginnings of the
names that are written in the paths, the shorter first, so that a level comes after all of its own
beginnings; and they do not depend on the order of the paths, nor on how often one of them comes. -/
theorem expandPaths_levels (paths : List String) :
    (∀ level, level ∈ expandPaths paths ↔
      level ≠ [] ∧ ∃ path ∈ paths, ∃ names, Named path names ∧ level <+: names) ∧
    (expandPaths paths).Nodup ∧
    (expandPaths paths).Pairwise (fun level later => level.length ≤ later.length) ∧
    (∀ level ∈ expandPaths paths, ∀ beginning, beginning ≠ [] → beginning ≠ level → beginning <+: level →
      [beginning, level].Sublist (expandPaths paths)) ∧
    ∀ others : List String, (∀ path, path ∈ others ↔ path ∈ paths) →
      expandPaths others = expandPaths paths := by
  refine ⟨fun level => ?_, expandPaths_nodup paths, expandPaths_sorted paths,
    fun level hlevel beginning hne hproper hbegins => ?_, fun others => expandPaths_congr⟩
  · simp only [mem_expandPaths, ← pathSegments_eq_iff, exists_eq_left']
  · obtain ⟨-, path, hpath, hnames⟩ := mem_expandPaths.mp hlevel
    refine sublist_expandPaths (mem_expandPaths.mpr ⟨hne, path, hpath, hbegins.trans hnames⟩) hlevel ?_
    exact hbegins.length_le.lt_of_ne fun hlength => hproper (hbegins.eq_of_length hlength)

/-- Of paths with blanks, with parts that are blank, and with a beginning in common. -/
theorem expandPaths_levels_blanks :
    let paths := ["posts. comments ", " .. ", "posts..author"]
    let others := ["posts..author", "posts. comments ", "posts..author", " .. "]
    (∀ path, path ∈ others ↔ path ∈ paths) ∧ Named "posts. comments " ["posts", "comments"] ∧
      ["posts"] <+: ["posts", "comments"] ∧
      [["posts"], ["posts", "comments"]].Sublist (expandPaths paths) ∧
      expandPaths others = expandPaths paths := by
  intro paths others
  have hothers : ∀ path, path ∈ others ↔ path ∈ paths := fun path => by
    simp only [others, paths, List.mem_cons, List.not_mem_nil]
    tauto
  have hnamed : Named "posts. comments " ["posts", "comments"] :=
    pathSegments_eq_iff.mp (by decide +kernel)
  have hbegins : ["posts"] <+: ["posts", "comments"] := ⟨["comments"], rfl⟩
  obtain ⟨hmem, -, -, hsublist, hcongr⟩ := expandPaths_levels paths
  have hlevel : ["posts", "comments"] ∈ expandPaths paths :=
    (hmem _).mpr ⟨by decide, "posts. comments ", by decide, _, hnamed, List.prefix_rfl⟩
  exact ⟨hothers, hnamed, hbegins, hsublist _ hlevel _ (by decide) (by decide) hbegins,
    hcongr others hothers⟩

end GraphMapper
