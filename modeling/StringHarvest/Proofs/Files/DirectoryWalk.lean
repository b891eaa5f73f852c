import Mathlib.Data.String.Basic
import StringHarvest.Proofs.Files.FoundInOrder

/-!
# Walks through directories

A walk goes through a directory in the order of names and into its directories where they stand.
This file says which files it gives, by the names that lead to them, and in which order.

**Main theorem** (`sourceFiles_walk`): a walk gives exactly the files at any depth whose
extension is one of the language and on the way to which no directory is skipped; the
directory itself may be called as it likes, and so may a file. Every one of them is given once
and the paths ascend strictly, so sorting them changes nothing, and they are what a source
finds that is the path of the directory.

Names are compared before what stands below them (`compare_lt_of_name_lt`), so a
directory whose name comes first has all its files first. In the order of texts this
is not so, where a slash counts.
-/

namespace StringHarvest

/-! ### Extensions -/

namespace Path

/-- The extension is what stands behind the last dot, if something stands before it. -/
theorem extensionOf?_eq_some_iff {name : List Char} {extension : String} :
    extensionOf? name = some extension ↔
      ∃ stem, stem ≠ [] ∧ '.' ∉ extension.toList ∧ name = stem ++ '.' :: extension.toList := by
  unfold extensionOf?
  dsimp only
  constructor
  · intro h
    split at h
    · cases h
    · rename_i hlong
      obtain rfl := Option.some.inj h
      have hdot : '.' ∉ name.reverse.takeWhile (· != '.') := fun hmem => by
        simpa using List.mem_takeWhile_imp hmem
      have hsplit := List.takeWhile_append_dropWhile (p := (· != '.')) (l := name.reverse)
      rcases hbehind : name.reverse.dropWhile (· != '.') with _ | ⟨c, before⟩ <;>
        rw [hbehind] at hsplit
      · rw [List.append_nil] at hsplit
        rw [hsplit, List.length_reverse] at hlong
        omega
      · have hc : c = '.' := by
          have hhead := List.head?_dropWhile_not (· != '.') name.reverse
          rw [hbehind] at hhead
          simpa using hhead
        subst hc
        have hname : name = before.reverse ++ '.' :: (name.reverse.takeWhile (· != '.')).reverse :=
          List.reverse_inj.mp (hsplit.symm.trans (by simp))
        refine ⟨before.reverse, ?_, by simpa using hdot, ?_⟩
        · intro hnil
          rw [hnil] at hname
          have hlength := congrArg List.length hname
          simp only [List.nil_append, List.length_cons, List.length_reverse] at hlength
          omega
        · rw [String.toList_ofList]
          exact hname
  · rintro ⟨stem, hstem, hdot, rfl⟩
    have hafter : (stem ++ '.' :: extension.toList).reverse.takeWhile (· != '.') =
        extension.toList.reverse := by
      have hall : ∀ c ∈ extension.toList.reverse, (c != '.') = true := fun c hc =>
        bne_iff_ne.mpr fun heq => hdot (heq ▸ List.mem_reverse.mp hc)
      rw [List.reverse_append, List.reverse_cons, List.append_assoc,
        List.takeWhile_append_of_pos hall]
      simp
    have hpos := List.length_pos_iff.mpr hstem
    rw [hafter, if_neg (by simp; omega), List.reverse_reverse, String.ofList_toList]

end Path

/-- Whether a name has one of the extensions of a language: something, a dot, and the extension. -/
def Language.Names (language : Language) (name : String) : Prop :=
  ∃ stem extension, stem ≠ "" ∧ extension ∈ language.extensions ∧ name = stem ++ "." ++ extension

/-- No extension has a dot. -/
theorem Language.dot_notMem_extension {language : Language} {extension : String}
    (h : extension ∈ language.extensions) : '.' ∉ extension.toList := by
  revert h extension
  cases language <;> decide

/-- A file below a directory is taken if its name has one of the extensions. -/
theorem Language.covers_join_iff {language : Language} {name : String} (h : Path.isName name = true)
    (path : Path) : language.covers (path.join ⟨name⟩) = true ↔ language.Names name := by
  have hname : (path.join ⟨name⟩).fileName? = some name := by
    unfold Path.fileName?
    rw [Path.components_join_name h, List.getLast?_concat]
  have hextension : (path.join ⟨name⟩).extension? = Path.extensionOf? name.toList := by
    unfold Path.extension?
    rw [hname, Option.bind_some]
  unfold covers
  rw [hextension]
  constructor
  · intro hcovers
    split at hcovers
    · rename_i extension hsome
      obtain ⟨stem, hstem, -, hstemName⟩ := Path.extensionOf?_eq_some_iff.mp hsome
      refine ⟨String.ofList stem, extension, by simpa using hstem, by simpa using hcovers, ?_⟩
      rw [← String.toList_inj, hstemName]
      simp
    · cases hcovers
  · rintro ⟨stem, extension, hstem, hmem, rfl⟩
    have hsome : Path.extensionOf? (stem ++ "." ++ extension).toList = some extension :=
      Path.extensionOf?_eq_some_iff.mpr
        ⟨stem.toList, by simpa using hstem, dot_notMem_extension hmem, by simp⟩
    rw [hsome]
    simpa using hmem

/-! ### The order of paths below a directory -/

namespace Path

/-- The path that names lead to from a path. -/
def descend (path : Path) (names : List String) : Path :=
  names.foldl (fun path name => path.join ⟨name⟩) path

/-- To descend along names is to add them as components. -/
theorem components_descend {names : List String} (h : ∀ name ∈ names, isName name = true)
    (path : Path) : (path.descend names).components = path.components ++ names.map .name := by
  induction names generalizing path with
  | nil => exact (List.append_nil _).symm
  | cons name names ih =>
      obtain ⟨hname, hrest⟩ := List.forall_mem_cons.mp h
      rw [descend, List.foldl_cons, ← descend, ih hrest, components_join_name hname, List.map_cons,
        List.append_assoc, List.singleton_append]

/-- Different names lead to different paths. -/
theorem descend_inj {names others : List String} (h : ∀ name ∈ names, isName name = true)
    (hothers : ∀ name ∈ others, isName name = true) {path : Path}
    (heq : path.descend names = path.descend others) : names = others := by
  have hcomponents := congrArg components heq
  rw [components_descend h, components_descend hothers] at hcomponents
  exact List.map_injective_iff.mpr (fun _ _ => Component.name.inj)
    (List.append_cancel_left hcomponents)

/-- A common front does not count in a comparison. -/
theorem compareComponents_append (front cs ds : List Component) :
    compareComponents (front ++ cs) (front ++ ds) = compareComponents cs ds := by
  induction front with
  | nil => rfl
  | cons c front ih =>
      have hself : c.compare c = .eq := Std.ReflCmp.compare_self
      rw [List.cons_append, List.cons_append, compareComponents, hself, ih]
      rfl

/-- **Names are compared first**, and what follows them does not matter. -/
theorem compare_lt_of_name_lt {p q path : Path} {name name' : String}
    {below below' : List Component} (h : name < name')
    (hp : p.components = path.components ++ .name name :: below)
    (hq : q.components = path.components ++ .name name' :: below') : p.compare q = .lt := by
  have hname : Component.compare (.name name) (.name name') = .lt := by
    unfold Component.compare
    rw [show Component.text (.name name) = name from rfl,
      show Component.text (.name name') = name' from rfl, compare_lt_iff_lt.mpr h]
    rfl
  rw [compare, hp, hq, compareComponents_append, compareComponents, hname]
  rfl

end Path

/-! ### Trees -/

namespace Tree

/-- What holds of files, and of a directory if it holds of its entries, holds of all trees. -/
theorem induction_entries {motive : Tree → Prop} (file : ∀ text, motive (.file text))
    (directory : ∀ entries, (∀ entry ∈ entries, motive entry.2) → motive (.directory entries)) :
    (tree : Tree) → motive tree
  | .file text => file text
  | .directory entries =>
      directory entries fun entry _ => induction_entries file directory entry.2
termination_by tree => sizeOf tree
decreasing_by
  rename_i hentry
  have hlt := List.sizeOf_lt_of_mem hentry
  obtain ⟨name, tree⟩ := entry
  simp only [Prod.mk.sizeOf_spec, Tree.directory.sizeOf_spec] at hlt ⊢
  omega

mutual

/-- Whether the names in every directory of a tree are different from each other. -/
def hasDistinctNames : Tree → Bool
  | .file _ => true
  | .directory entries => entriesDistinct entries

/-- `hasDistinctNames` over entries. -/
def entriesDistinct : List (String × Tree) → Bool
  | [] => true
  | (name, tree) :: rest =>
    !(rest.map Prod.fst).contains name && tree.hasDistinctNames && entriesDistinct rest

end

/-- Distinct names are distinct in the entries and below each of them. -/
theorem entriesDistinct_iff {entries : List (String × Tree)} :
    entriesDistinct entries = true ↔
      (entries.map Prod.fst).Nodup ∧ ∀ entry ∈ entries, entry.2.hasDistinctNames = true := by
  induction entries with
  | nil => simp [entriesDistinct]
  | cons entry rest ih =>
      obtain ⟨name, tree⟩ := entry
      rw [entriesDistinct, Bool.and_eq_true, Bool.and_eq_true, ih, List.map_cons, List.nodup_cons,
        List.forall_mem_cons]
      simp only [Bool.not_eq_true', List.contains_eq_mem, decide_eq_false_iff_not]
      tauto

/-- Where names are distinct, to look a name up is to find its entry. -/
theorem lookup_eq_some_iff_mem {entries : List (String × Tree)} (h : (entries.map Prod.fst).Nodup)
    {name : String} {tree : Tree} : entries.lookup name = some tree ↔ (name, tree) ∈ entries := by
  rw [List.lookup_eq_some_iff]
  constructor
  · rintro ⟨before, after, rfl, -⟩
    simp
  · intro hmem
    obtain ⟨before, after, rfl⟩ := List.append_of_mem hmem
    rw [List.map_append, List.nodup_append] at h
    refine ⟨before, after, rfl, fun entry hentry => bne_iff_ne.mpr fun heq => ?_⟩
    exact h.2.2 entry.1 (List.mem_map_of_mem hentry) name (by simp) heq.symm

variable {language : Language} {path : Path}

/-! ### The files of a directory -/

/-- The files that an entry stands for or holds. -/
def filesOf (language : Language) (path : Path) (entry : String × Tree) : List Path :=
  match entry.2 with
  | .file _ => if language.covers (path.join ⟨entry.1⟩) then [path.join ⟨entry.1⟩] else []
  | .directory _ =>
    if skippedDirectories.contains entry.1 then []
    else sourceFiles language (path.join ⟨entry.1⟩) entry.2

/-- An entry gives the file that it stands for, or what a walk through it gives. -/
theorem mem_filesOf_iff {entry : String × Tree} (hname : Path.isName entry.1 = true) {p : Path} :
    p ∈ filesOf language path entry ↔
      (∃ text, entry.2 = .file text ∧ language.Names entry.1 ∧ p = path.join ⟨entry.1⟩) ∨
        entry.1 ∉ skippedDirectories ∧ p ∈ sourceFiles language (path.join ⟨entry.1⟩) entry.2 := by
  obtain ⟨name, tree⟩ := entry
  have hcovers : language.covers (path.join ⟨name⟩) = true ↔ language.Names name :=
    Language.covers_join_iff hname path
  cases tree with
  | file text => simp [filesOf, sourceFiles, hcovers]
  | directory inner => simp [filesOf]

/-- The files of an entry are related to each other as those of a walk through it. -/
theorem pairwise_filesOf {R : Path → Path → Prop} {entry : String × Tree}
    (h : (sourceFiles language (path.join ⟨entry.1⟩) entry.2).Pairwise R) :
    (filesOf language path entry).Pairwise R := by
  unfold filesOf
  split
  · split
    · exact List.pairwise_singleton R _
    · exact List.Pairwise.nil
  · split
    · exact List.Pairwise.nil
    · exact h

/-- The files of entries are those of each, under its name. -/
theorem entryFiles_eq_map (entries : List (String × Tree)) :
    entryFiles language path entries =
      entries.map fun entry => (entry.1, filesOf language path entry) := by
  induction entries with
  | nil => rw [entryFiles, List.map_nil]
  | cons entry rest ih =>
      obtain ⟨name, tree⟩ := entry
      cases tree <;> rw [entryFiles, ih, List.map_cons, filesOf]

/-- The source files of a directory are those of its entries, sorted by name. -/
theorem sourceFiles_directory (entries : List (String × Tree)) :
    sourceFiles language path (.directory entries) =
      (sortByName (entries.map fun entry => (entry.1, filesOf language path entry))).flatMap
          (·.2) := by
  rw [sourceFiles, entryFiles_eq_map]

/-- A source file of a directory is one of an entry. -/
theorem mem_sourceFiles_directory {entries : List (String × Tree)} {p : Path} :
    p ∈ sourceFiles language path (.directory entries) ↔
      ∃ entry ∈ entries, p ∈ filesOf language path entry := by
  rw [sourceFiles_directory, List.mem_flatMap]
  simp only [sortByName, List.mem_mergeSort, List.mem_map]
  constructor
  · rintro ⟨named, ⟨entry, hentry, rfl⟩, hp⟩
    exact ⟨entry, hentry, hp⟩
  · rintro ⟨entry, hentry, hp⟩
    exact ⟨_, ⟨entry, hentry, rfl⟩, hp⟩

/-- Whether names lead from a tree to a file that a walk gives: none of the directories on the way
is skipped, and the name of the file has one of the extensions. -/
structure Shows (language : Language) (tree : Tree) (directories : List String) (name : String) :
    Prop where
  isFile : ∃ text, tree.find? (directories ++ [name]) = some (.file text)
  entered : ∀ directory ∈ directories, directory ∉ skippedDirectories
  named : language.Names name

/-- Names lead on from a directory through an entry. -/
theorem find?_directory {entries : List (String × Tree)} (h : (entries.map Prod.fst).Nodup)
    {name : String} {rest : List String} {found : Tree} :
    (directory entries).find? (name :: rest) = some found ↔
      ∃ tree, (name, tree) ∈ entries ∧ tree.find? rest = some found := by
  rw [find?, Option.bind_eq_some_iff]
  exact exists_congr fun tree => and_congr_left fun _ => lookup_eq_some_iff_mem h

/-- A file in a directory shows if its name is one of the language. -/
theorem shows_nil_iff {entries : List (String × Tree)} (h : (entries.map Prod.fst).Nodup)
    {name : String} :
    Shows language (directory entries) [] name ↔
      (∃ text, (name, file text) ∈ entries) ∧ language.Names name := by
  constructor
  · rintro ⟨⟨text, hfound⟩, -, hname⟩
    obtain ⟨tree, hentry, hself⟩ := (find?_directory h).mp hfound
    obtain rfl := Option.some.inj hself
    exact ⟨⟨text, hentry⟩, hname⟩
  · rintro ⟨⟨text, hentry⟩, hname⟩
    exact ⟨⟨text, (find?_directory h).mpr ⟨_, hentry, rfl⟩⟩, List.forall_mem_nil _, hname⟩

/-- A file further down shows if the first directory is not skipped and the file shows in it. -/
theorem shows_cons_iff {entries : List (String × Tree)} (h : (entries.map Prod.fst).Nodup)
    {first name : String} {directories : List String} :
    Shows language (directory entries) (first :: directories) name ↔
      first ∉ skippedDirectories ∧
        ∃ tree, (first, tree) ∈ entries ∧ Shows language tree directories name := by
  constructor
  · rintro ⟨⟨text, hfound⟩, hentered, hname⟩
    obtain ⟨tree, hentry, hfound⟩ := (find?_directory h).mp hfound
    obtain ⟨hfirst, hentered⟩ := List.forall_mem_cons.mp hentered
    exact ⟨hfirst, tree, hentry, ⟨text, hfound⟩, hentered, hname⟩
  · rintro ⟨hfirst, tree, hentry, ⟨text, hfound⟩, hentered, hname⟩
    exact ⟨⟨text, (find?_directory h).mpr ⟨tree, hentry, hfound⟩⟩,
      List.forall_mem_cons.mpr ⟨hfirst, hentered⟩, hname⟩

/-- **Which files a walk gives.** -/
theorem mem_sourceFiles_iff (tree : Tree) (hnamed : tree.isNamed = true)
    (hdistinct : tree.hasDistinctNames = true) (path : Path) (p : Path) :
    p ∈ sourceFiles language path tree ↔
      ∃ directories name, Shows language tree directories name ∧
        p = path.descend (directories ++ [name]) := by
  induction tree using induction_entries generalizing path with
  | file text =>
      rw [sourceFiles]
      refine ⟨nofun, ?_⟩
      rintro ⟨directories, name, ⟨⟨found, hfound⟩, -, -⟩, -⟩
      cases directories <;> cases hfound
  | directory entries ih =>
      obtain ⟨hnodup, hinner⟩ := entriesDistinct_iff.mp hdistinct
      rw [mem_sourceFiles_directory]
      constructor
      · rintro ⟨⟨name, tree⟩, hentry, hp⟩
        obtain ⟨hname, htree⟩ := isNamed_of_mem hnamed hentry
        rcases (mem_filesOf_iff hname).mp hp with ⟨text, rfl, hfile, rfl⟩ | ⟨hfirst, hp⟩
        · exact ⟨[], name, (shows_nil_iff hnodup).mpr ⟨⟨text, hentry⟩, hfile⟩, rfl⟩
        · obtain ⟨directories, file, hshows, rfl⟩ := (ih _ hentry htree (hinner _ hentry) _).mp hp
          have hbelow := (shows_cons_iff hnodup).mpr ⟨hfirst, tree, hentry, hshows⟩
          exact ⟨name :: directories, file, hbelow, rfl⟩
      · rintro ⟨_ | ⟨name, directories⟩, file, hshows, rfl⟩
        · obtain ⟨⟨text, hentry⟩, hfile⟩ := (shows_nil_iff hnodup).mp hshows
          obtain ⟨hname, -⟩ := isNamed_of_mem hnamed hentry
          exact ⟨_, hentry, (mem_filesOf_iff hname).mpr (.inl ⟨text, rfl, hfile, rfl⟩)⟩
        · obtain ⟨hfirst, tree, hentry, hshows⟩ := (shows_cons_iff hnodup).mp hshows
          obtain ⟨hname, htree⟩ := isNamed_of_mem hnamed hentry
          have hp := (ih _ hentry htree (hinner _ hentry) _).mpr ⟨directories, file, hshows, rfl⟩
          exact ⟨_, hentry, (mem_filesOf_iff hname).mpr (.inr ⟨hfirst, hp⟩)⟩

/-! ### Their order -/

/-- Everything that an entry gives has its name next. -/
theorem components_of_mem_filesOf {entry : String × Tree} (hname : Path.isName entry.1 = true)
    (hnamed : entry.2.isNamed = true) {p : Path} (hp : p ∈ filesOf language path entry) :
    ∃ below, p.components = path.components ++ .name entry.1 :: below := by
  have hhere := Path.components_join_name hname path
  rcases (mem_filesOf_iff hname).mp hp with ⟨text, -, -, rfl⟩ | ⟨-, hp⟩
  · exact ⟨[], hhere⟩
  · obtain ⟨names, -, hcomponents⟩ := isBelow_of_mem_sourceFiles entry.2 hnamed p hp
    rw [hhere, List.append_assoc, List.singleton_append] at hcomponents
    exact ⟨_, hcomponents⟩

/-- What is sorted by different names ascends strictly by them. -/
theorem pairwise_sortByName {α : Type} {named : List (String × α)}
    (h : (named.map Prod.fst).Nodup) : (sortByName named).Pairwise fun a b => a.1 < b.1 := by
  have hsorted : (sortByName named).Pairwise fun a b => decide (a.1 ≤ b.1) = true := by
    refine List.pairwise_mergeSort (fun a b c hab hbc => ?_) (fun a b => ?_) named
    · simp only [decide_eq_true_eq] at hab hbc ⊢
      exact le_trans hab hbc
    · simpa using le_total a.1 b.1
  have hperm : ((sortByName named).map Prod.fst).Nodup :=
    ((List.mergeSort_perm named _).map Prod.fst).nodup_iff.mpr h
  refine (hsorted.and (List.pairwise_map.mp hperm)).imp fun {a b} hab => ?_
  exact lt_of_le_of_ne (of_decide_eq_true hab.1) hab.2

/-- **The files of a walk ascend strictly.** -/
theorem pairwise_sourceFiles (tree : Tree) (hnamed : tree.isNamed = true)
    (hdistinct : tree.hasDistinctNames = true) (path : Path) :
    (sourceFiles language path tree).Pairwise fun p q => p.compare q = .lt := by
  induction tree using induction_entries generalizing path with
  | file text =>
      rw [sourceFiles]
      exact List.Pairwise.nil
  | directory entries ih =>
      obtain ⟨hnodup, hinner⟩ := entriesDistinct_iff.mp hdistinct
      have hentry : ∀ named ∈ sortByName (entries.map fun e => (e.1, filesOf language path e)),
          ∃ entry ∈ entries, named = (entry.1, filesOf language path entry) := by
        intro named hmem
        obtain ⟨entry, hentry, rfl⟩ := List.mem_map.mp (List.mem_mergeSort.mp hmem)
        exact ⟨entry, hentry, rfl⟩
      rw [sourceFiles_directory, List.pairwise_flatMap]
      constructor
      · -- within an entry
        intro named hnamedMem
        obtain ⟨entry, hmem, rfl⟩ := hentry named hnamedMem
        exact pairwise_filesOf (ih _ hmem (isNamed_of_mem hnamed hmem).2 (hinner _ hmem) _)
      · -- of two entries the names tell the order
        have hnames : (entries.map fun e => (e.1, filesOf language path e)).map Prod.fst =
            entries.map Prod.fst := by
          rw [List.map_map]
          rfl
        refine (pairwise_sortByName (hnames ▸ hnodup)).imp_of_mem
          fun {a b} ha hb hlt p hp q hq => ?_
        obtain ⟨entry, hmem, rfl⟩ := hentry a ha
        obtain ⟨entry', hmem', rfl⟩ := hentry b hb
        obtain ⟨hname, htree⟩ := isNamed_of_mem hnamed hmem
        obtain ⟨hname', htree'⟩ := isNamed_of_mem hnamed hmem'
        obtain ⟨below, hbelow⟩ := components_of_mem_filesOf hname htree hp
        obtain ⟨below', hbelow'⟩ := components_of_mem_filesOf hname' htree' hq
        exact Path.compare_lt_of_name_lt hlt hbelow hbelow'

end Tree

namespace Discovered

variable {files : List Path}

/-- Paths in order are sorted already. -/
theorem sortPaths_of_pairwise (h : files.Pairwise fun p q => p.compare q = .lt) :
    sortPaths files = files :=
  List.mergeSort_of_pairwise (h.imp fun {p q} hlt => by rw [hlt]; rfl)

/-- Paths that differ from each other are all new. -/
theorem addNew_of_pairwise (h : files.Pairwise fun p q => p.compare q = .lt) :
    addNew [] files = files := by
  induction files with
  | nil => rfl
  | cons p rest ih =>
      obtain ⟨hfirst, hrest⟩ := List.pairwise_cons.mp h
      have hcons : addNew [] (p :: rest) = extend [p] (addNew [] rest) := addNew_eq_extend [p] rest
      rw [hcons, ih hrest, extend, List.filter_eq_self.mpr fun q hq => ?_]
      · rfl
      · rw [isNew_iff, List.map_singleton, List.mem_singleton]
        intro heq
        have hsame := Path.compare_eq_eq_iff.mpr heq.symm
        rw [hfirst q hq] at hsame
        cases hsame

/-- A source that is the path of a directory gives what a walk through it gives. -/
theorem discover_directory {fs : FileSystem} {base : Path} {language : Language} {source : String}
    {entries : List (String × Tree)} (hliteral : Glob.isPattern source = false)
    (hentry : fs.entry? (base.join ⟨source⟩) = some (.directory entries))
    (h : ((Tree.directory entries).sourceFiles language (base.join ⟨source⟩)).Pairwise fun p q =>
      p.compare q = .lt) :
    discover fs base [source] language =
      ⟨(Tree.directory entries).sourceFiles language (base.join ⟨source⟩), 0⟩ := by
  have hfound : ofSource fs base language source =
      ((Tree.directory entries).sourceFiles language (base.join ⟨source⟩), 0) := by
    simp only [ofSource, hliteral, filesAt, hentry, Bool.false_eq_true, if_false]
  simp only [discover, List.foldl_cons, List.foldl_nil, add, hfound, sortPaths_of_pairwise h,
    addNew_of_pairwise h]

end Discovered

namespace Tree

/-- **A walk through a directory.** For every directory whose names are names and, within a
directory, different from each other, a walk gives exactly the files at any depth below it whose
names have an extension of the language and on the way to which no directory is called
`node_modules` or `.git`. What stands at different places has different paths and no path is given
twice, and the paths ascend strictly from component to component. So they are sorted already, and a
source that is the path of the directory finds exactly them. -/
theorem sourceFiles_walk (language : Language) (path : Path) (entries : List (String × Tree))
    (hnamed : (directory entries).isNamed = true)
    (hdistinct : (directory entries).hasDistinctNames = true) :
    (∀ p, p ∈ (directory entries).sourceFiles language path ↔
      ∃ directories name text,
        (directory entries).find? (directories ++ [name]) = some (.file text) ∧
        (∀ inner ∈ directories, inner ≠ "node_modules" ∧ inner ≠ ".git") ∧
        (∃ stem extension, stem ≠ "" ∧ extension ∈ language.extensions ∧
          name = stem ++ "." ++ extension) ∧
        p = path.descend (directories ++ [name])) ∧
    (∀ location other found found', (directory entries).find? location = some found →
      (directory entries).find? other = some found' → path.descend location = path.descend other →
      location = other) ∧
    ((directory entries).sourceFiles language path).Nodup ∧
    ((directory entries).sourceFiles language path).Pairwise (fun p q => p.compare q = .lt) ∧
    Discovered.sortPaths ((directory entries).sourceFiles language path) =
      (directory entries).sourceFiles language path ∧
    ∀ fs base source, Glob.isPattern source = false → base.join ⟨source⟩ = path →
      fs.entry? path = some (.directory entries) →
      discover fs base [source] language = ⟨(directory entries).sourceFiles language path, 0⟩ := by
  have hordered : ((directory entries).sourceFiles language path).Pairwise fun p q =>
      p.compare q = .lt := pairwise_sourceFiles _ hnamed hdistinct path
  refine ⟨fun p => ?_, fun location other found found' hfound hfound' heq => ?_, ?_, hordered,
    Discovered.sortPaths_of_pairwise hordered, ?_⟩
  · have hskipped : ∀ inner : String,
        inner ∉ skippedDirectories ↔ inner ≠ "node_modules" ∧ inner ≠ ".git" := by
      simp [skippedDirectories]
    rw [mem_sourceFiles_iff _ hnamed hdistinct]
    constructor
    · rintro ⟨directories, name, ⟨⟨text, hfile⟩, hentered, hname⟩, hp⟩
      exact ⟨directories, name, text, hfile, fun inner h => (hskipped inner).mp (hentered inner h),
        hname, hp⟩
    · rintro ⟨directories, name, text, hfile, hentered, hname, hp⟩
      exact ⟨directories, name,
        ⟨⟨text, hfile⟩, fun inner h => (hskipped inner).mpr (hentered inner h), hname⟩, hp⟩
  · exact Path.descend_inj (isName_of_find? hnamed hfound) (isName_of_find? hnamed hfound') heq
  · refine hordered.imp fun {p q} hlt heq => ?_
    rw [heq, Path.compare_eq_eq_iff.mpr rfl] at hlt
    cases hlt
  · rintro fs base source hliteral rfl hentry
    exact Discovered.discover_directory hliteral hentry hordered

/-- A walk that starts at a directory called `.git`: it goes into `a-b`, and takes a file that
is called `node_modules.js`. -/
theorem sourceFiles_walk_below_git :
    let inner : List (String × Tree) := [("x.js", .file none), (".js", .file none)]
    let entries : List (String × Tree) :=
      [("a.js", .file none), ("node_modules", .directory inner), ("a-b", .directory inner),
        ("node_modules.js", .file none)]
    let fs : FileSystem := ⟨.directory [(".git", .directory entries)], []⟩
    let files := (discover fs ⟨"."⟩ [".git"] .javascript).files
    ⟨"./.git/a-b/x.js"⟩ ∈ files ∧ ⟨"./.git/node_modules.js"⟩ ∈ files ∧
      (directory entries).find? ["a-b", "x.js"] = some (.file none) ∧
      Discovered.sortPaths files = files := by
  intro inner entries fs files
  obtain ⟨hmem, -, -, -, hsorted, hdiscover⟩ :=
    sourceFiles_walk .javascript ⟨"./.git"⟩ entries (by decide +kernel) (by decide +kernel)
  have hentry : fs.entry? ⟨"./.git"⟩ = some (.directory entries) := by
    have hsegments : Path.segments ⟨"./.git"⟩ = [".", ".git"] := by decide +kernel
    have habsolute : Path.isAbsolute ⟨"./.git"⟩ = false := by decide +kernel
    unfold FileSystem.entry? FileSystem.entry FileSystem.locate
    rw [hsegments, habsolute]
    rfl
  have hfound := hdiscover fs ⟨"."⟩ ".git" (by decide +kernel) (by decide +kernel) hentry
  have hfiles : files = (directory entries).sourceFiles .javascript ⟨"./.git"⟩ :=
    congrArg Discovered.files hfound
  rw [hfiles, hmem, hmem]
  refine ⟨⟨["a-b"], "x.js", none, rfl, by decide, ?_, by decide +kernel⟩,
    ⟨[], "node_modules.js", none, rfl, by decide, ?_, by decide +kernel⟩, rfl, hsorted⟩
  · exact ⟨"x", "js", by decide, by decide, by decide⟩
  · exact ⟨"node_modules", "js", by decide, by decide, by decide⟩

end Tree

end StringHarvest
