import StringHarvest.Files.Discovery
import StringHarvest.Proofs.Glob.Segments
import StringHarvest.Proofs.Path.Components

/-!
# How found files are spelled

A file is found by a path that is put together from what the sources say and from the names in the
file system. If the names are names (`Tree.isNamed`) and no segment of a source leads up
(`Glob.goesDown`), the path of a found file has no `..`, and it starts with a `.` exactly if the
source is no pattern and its own path does (`Discovered.spelled_of_mem_ofSource`): a walk keeps the
path of its directory, and an expansion does not write the current directory.
-/

namespace StringHarvest

/-! ### Walks -/

namespace Tree

mutual

/-- Whether the names in a tree can be names of files and directories. -/
def isNamed : Tree → Bool
  | .file _ => true
  | .directory entries => entriesNamed entries

/-- `isNamed` over entries. -/
def entriesNamed : List (String × Tree) → Bool
  | [] => true
  | (name, tree) :: rest => Path.isName name && tree.isNamed && entriesNamed rest

end

/-- Entries are named if the first one and the other ones are. -/
theorem entriesNamed_cons {name : String} {tree : Tree} {rest : List (String × Tree)} :
    entriesNamed ((name, tree) :: rest) = true ↔
      Path.isName name = true ∧ tree.isNamed = true ∧ entriesNamed rest = true := by
  rw [entriesNamed, Bool.and_eq_true, Bool.and_eq_true, and_assoc]

/-- So is each of them. -/
theorem isNamed_of_mem {entries : List (String × Tree)} (h : entriesNamed entries = true)
    {entry : String × Tree} (hentry : entry ∈ entries) :
    Path.isName entry.1 = true ∧ entry.2.isNamed = true := by
  induction entries with
  | nil => cases hentry
  | cons first rest ih =>
      obtain ⟨hname, htree, hrest⟩ := entriesNamed_cons.mp h
      rcases List.mem_cons.mp hentry with rfl | hentry
      · exact ⟨hname, htree⟩
      · exact ih hrest hentry

/-- A child of a named tree is named. -/
theorem isNamed_of_child? {tree child : Tree} {name : String} (h : tree.isNamed = true)
    (hchild : tree.child? name = some child) : Path.isName name = true ∧ child.isNamed = true := by
  cases tree with
  | file text => cases hchild
  | directory entries =>
      obtain ⟨before, after, hentries, -⟩ := List.lookup_eq_some_iff.mp hchild
      have hmem : (name, child) ∈ entries := by simp [show entries = _ from hentries]
      exact isNamed_of_mem h hmem

/-- So is everything that is found in a named tree. -/
theorem isNamed_of_find? {tree found : Tree} {location : List String} (h : tree.isNamed = true)
    (hfound : tree.find? location = some found) : found.isNamed = true := by
  induction location generalizing tree with
  | nil => exact Option.some.inj hfound ▸ h
  | cons name location ih =>
      obtain ⟨child, hchild, hbelow⟩ := Option.bind_eq_some_iff.mp hfound
      exact ih (isNamed_of_child? h hchild).2 hbelow

/-- The names on the way to something in a tree are names. -/
theorem isName_of_find? {tree found : Tree} {location : List String} (h : tree.isNamed = true)
    (hfound : tree.find? location = some found) : ∀ name ∈ location, Path.isName name = true := by
  induction location generalizing tree with
  | nil => exact nofun
  | cons name location ih =>
      obtain ⟨child, hchild, hbelow⟩ := Option.bind_eq_some_iff.mp hfound
      obtain ⟨hname, hnamed⟩ := isNamed_of_child? h hchild
      exact List.forall_mem_cons.mpr ⟨hname, ih hnamed hbelow⟩

mutual

/-- A walk gives paths below its directory. -/
theorem isBelow_of_mem_sourceFiles {language : Language} {path : Path} : (tree : Tree) →
    tree.isNamed = true → ∀ p ∈ tree.sourceFiles language path, p.IsBelow path
  | .file _, _, p, hp => by
      rw [sourceFiles] at hp
      cases hp
  | .directory entries, h, p, hp => by
      rw [sourceFiles] at hp
      obtain ⟨named, hnamed, hp⟩ := List.mem_flatMap.mp hp
      exact isBelow_of_mem_entryFiles entries h named (List.mem_mergeSort.mp hnamed) p hp

/-- The files of entries lie below the path of the directory. -/
@[inherit_doc isBelow_of_mem_sourceFiles]
theorem isBelow_of_mem_entryFiles {language : Language} {path : Path} :
    (entries : List (String × Tree)) → entriesNamed entries = true →
    ∀ named ∈ entryFiles language path entries, ∀ p ∈ named.2, p.IsBelow path
  | [], _, named, hnamed => by
      rw [entryFiles] at hnamed
      cases hnamed
  | (name, .file _) :: rest, h, named, hnamed => by
      obtain ⟨hname, -, hrest⟩ := entriesNamed_cons.mp h
      rw [entryFiles] at hnamed
      rcases List.mem_cons.mp hnamed with rfl | hnamed
      · intro p hp
        dsimp only at hp
        split at hp
        · rw [List.mem_singleton.mp hp]
          exact Path.isBelow_join hname path
        · cases hp
      · exact isBelow_of_mem_entryFiles rest hrest named hnamed
  | (name, .directory entries) :: rest, h, named, hnamed => by
      obtain ⟨hname, htree, hrest⟩ := entriesNamed_cons.mp h
      rw [entryFiles] at hnamed
      rcases List.mem_cons.mp hnamed with rfl | hnamed
      · intro p hp
        dsimp only at hp
        split at hp
        · cases hp
        · exact (isBelow_of_mem_sourceFiles (.directory entries) htree p hp).trans
            (Path.isBelow_join hname path)
      · exact isBelow_of_mem_entryFiles rest hrest named hnamed

end

mutual

/-- Everything below a tree has a path below that of the tree. -/
theorem isBelow_of_mem_descendants {path : Path} : (tree : Tree) → tree.isNamed = true →
    ∀ found ∈ tree.descendants path, found.1.IsBelow path
  | .file _, _, _, hfound => nomatch hfound
  | .directory entries, h, found, hfound => isBelow_of_mem_entryDescendants entries h found hfound

/-- So do the descendants of entries. -/
@[inherit_doc isBelow_of_mem_descendants]
theorem isBelow_of_mem_entryDescendants {path : Path} : (entries : List (String × Tree)) →
    entriesNamed entries = true → ∀ found ∈ entryDescendants path entries, found.1.IsBelow path
  | [], _, _, hfound => nomatch hfound
  | (name, tree) :: rest, h, found, hfound => by
      obtain ⟨hname, htree, hrest⟩ := entriesNamed_cons.mp h
      have hhere := Path.isBelow_join hname path
      rcases List.mem_cons.mp hfound with rfl | hfound
      · exact hhere
      · rcases List.mem_append.mp hfound with hfound | hfound
        · exact (isBelow_of_mem_descendants tree htree found hfound).trans hhere
        · exact isBelow_of_mem_entryDescendants rest hrest found hfound

end

end Tree

/-- What a path leads to is found in the tree. -/
theorem FileSystem.find?_of_entry? {fs : FileSystem} {p : Path} {tree : Tree}
    (h : fs.entry? p = some tree) :
    p.text ≠ "" ∧ ∃ location, fs.root.find? location = some tree := by
  have hentry : fs.entry p = .ok tree := by
    unfold entry? at h
    rcases hresult : fs.entry p with e | found
    · rw [hresult] at h
      cases h
    · rw [hresult] at h
      exact congrArg _ (Option.some.inj h)
  unfold entry at hentry
  obtain ⟨location, hlocate, hfound⟩ := bind_eq_ok_iff.mp hentry
  refine ⟨fun hempty => ?_, location, ?_⟩
  · rw [locate, if_pos (by simp [hempty])] at hlocate
    cases hlocate
  · split at hfound
    · rename_i found hfind
      rw [hfind, Except.ok.inj hfound]
    · cases hfound

/-- So it is named if the tree is. -/
theorem FileSystem.isNamed_of_entry? {fs : FileSystem} (hnamed : fs.root.isNamed = true) {p : Path}
    {tree : Tree} (h : fs.entry? p = some tree) : tree.isNamed = true := by
  obtain ⟨-, location, hlocation⟩ := find?_of_entry? h
  exact Tree.isNamed_of_find? hnamed hlocation

/-! ### Expansions -/

namespace Path

variable {base p : Path}

/-- The empty path is spelled well. -/
theorem spelled_empty : (⟨""⟩ : Path).Spelled false := ⟨by decide +kernel, by decide +kernel⟩

/-- A path that is spelled well without a leading dot does not stand for the current directory. -/
theorem Spelled.components_ne (h : p.Spelled false) : p.components ≠ [.here] := by
  intro heq
  have hstart := h.startsHere_eq
  unfold startsHere at hstart
  rw [heq] at hstart
  cases hstart

/-- A path joined to one that is not empty is not empty. -/
theorem join_text_ne (hp : p.isAbsolute = false) (hbase : base.text ≠ "") :
    (base.join p).text ≠ "" := by
  unfold join
  rw [if_neg (by simp [hp, hbase])]
  split <;> simp [hbase]

end Path

namespace Glob

/-- Where an expansion stands: at the current directory, or on a path that is
spelled without dots. -/
structure Stands (path : Path) : Prop where
  text_ne : path.text ≠ ""
  start : path.components = [.here] ∨ path.Spelled false

/-- A segment that is followed down: it has no slash, it is not `..`, and if it is matched against
names, `.` and `..` are not among them. -/
structure Segment.Down (s : Segment) : Prop where
  slash_notMem : '/' ∉ s.text.toList
  ne_up : s.text ≠ ".."
  specialNames_eq : s.isLiteral = false → specialNames s = []

/-- The path below which an expansion writes what it finds. -/
def outset (path : Path) : Path := if path.components == [.here] then ⟨""⟩ else path

variable {fs : FileSystem} {path p : Path} {s : Segment}

/-- A walk from the current directory sets out from the empty path. -/
theorem outset_of_here (h : path.components = [.here]) : outset path = ⟨""⟩ :=
  if_pos (beq_iff_eq.mpr h)

/-- Any other walk sets out from its own path. -/
theorem outset_of_ne (h : path.components ≠ [.here]) : outset path = path :=
  if_neg (by simpa using h)

/-- The path of an entry is its name joined to where the walk set out. -/
theorem below_eq (path : Path) (name : String) : below path name = (outset path).join ⟨name⟩ := by
  unfold below outset
  split
  · exact (Path.join_of_empty rfl _).symm
  · rfl

/-- A walk that stands sets out from a path that is spelled well. -/
theorem Stands.spelled_outset (h : Stands path) : (outset path).Spelled false := by
  unfold outset
  split
  · exact Path.spelled_empty
  · rename_i hne
    exact h.start.resolve_left (by simpa using hne)

/-- What is found below where an expansion stands is spelled without dots, and
an expansion can stand there. -/
theorem Stands.of_isBelow (h : Stands path) (hp : p.IsBelow (outset path)) :
    p.Spelled false ∧ Stands p := by
  have hspelled := hp.spelled h.spelled_outset
  exact ⟨hspelled, Path.text_ne_empty_of_components hp.components_ne_nil, .inr hspelled⟩

/-- One step further down it stands as well. -/
theorem Stands.of_name (h : Stands path) {name : String} (hname : Path.isName name = true) :
    (below path name).Spelled false ∧ Stands (below path name) := by
  rw [below_eq]
  exact h.of_isBelow (Path.isBelow_join hname _)

/-- A segment that stands for no component does not move an expansion. -/
theorem Stands.of_idle (h : Stands path) (hpath : path.components ≠ [.here]) {text : String}
    (hslash : '/' ∉ text.toList) (hidle : Path.component? text = none) :
    (below path text).Spelled false ∧ Stands (below path text) := by
  have habsolute := Path.isAbsolute_of_slash_notMem hslash
  rw [below_eq, outset_of_ne hpath]
  have hcomponents := Path.components_join habsolute h.text_ne
  rw [Path.segments_of_slash_notMem hslash, List.filterMap_cons, hidle] at hcomponents
  have hspelled : (path.join ⟨text⟩).Spelled false :=
    (h.start.resolve_left hpath).of_components (hcomponents.trans (List.append_nil _))
  exact ⟨hspelled, Path.join_text_ne habsolute h.text_ne, .inr hspelled⟩

/-- **A literal segment** leaves the current directory unless it is a `.`. -/
theorem Stands.of_literal (h : Stands path) (hdown : s.Down)
    (hleads : leadsOn fs path s.text = true) :
    Stands (below path s.text) ∧
      (path.Spelled false ∨ s.text ≠ "." → (below path s.text).Spelled false) := by
  have hslash := hdown.slash_notMem
  by_cases hname : Path.isName s.text = true
  · obtain ⟨hspelled, hstands⟩ := h.of_name hname
    exact ⟨hstands, fun _ => hspelled⟩
  have htext : s.text = "" ∨ s.text = "." := by
    by_contra hnot
    rw [not_or] at hnot
    exact hname (by simp [Path.isName, hnot, hdown.ne_up, hslash])
  by_cases hpath : path.components = [.here]
  · have hbelow : below path s.text = ⟨s.text⟩ := by
      rw [below_eq, outset_of_here hpath, Path.join_of_empty rfl]
    rcases htext with htext | htext
    · -- nothing stands at the empty path
      rw [leadsOn, hbelow, htext, if_neg (by decide)] at hleads
      obtain ⟨tree, htree⟩ := Option.isSome_iff_exists.mp hleads
      exact absurd rfl (FileSystem.find?_of_entry? htree).1
    · rw [hbelow, htext]
      refine ⟨⟨by decide, .inl rfl⟩, ?_⟩
      rintro (hspelled | hne)
      · exact absurd hpath hspelled.components_ne
      · exact absurd rfl hne
  · have hidle : Path.component? s.text = none := by
      rcases htext with htext | htext <;> rw [htext] <;> rfl
    obtain ⟨hspelled, hstands⟩ := h.of_idle hpath hslash hidle
    exact ⟨hstands, fun _ => hspelled⟩

/-- **The paths of an expansion** are spelled without dots if it leaves the current directory. -/
theorem spelled_of_mem_expandFrom (hnamed : fs.root.isNamed = true) {directoryWanted : Bool}
    {segments : List Segment} (hdown : ∀ s ∈ segments, s.Down) (hpath : Stands path)
    (hleaves : path.Spelled false ∨ ∃ s ∈ segments, s.text ≠ ".") :
    ∀ p ∈ expandFrom fs directoryWanted segments path, p.Spelled false := by
  -- a literal segment is followed, a pattern is matched against names, and `**` against all below
  fun_induction expandFrom fs directoryWanted segments path with
  | case1 path hwanted =>
      intro p hp
      rw [List.mem_singleton.mp hp]
      exact hleaves.resolve_right (by simp)
  | case2 => exact nofun
  | case3 s rest path hliteral hleads ih =>
      obtain ⟨hs, hrest⟩ := List.forall_mem_cons.mp hdown
      obtain ⟨hstands, hspelled⟩ := hpath.of_literal hs hleads
      refine ih hrest hstands ?_
      by_cases hmoves : path.Spelled false ∨ s.text ≠ "."
      · exact .inl (hspelled hmoves)
      · rw [not_or] at hmoves
        obtain ⟨t, ht, htext⟩ := hleaves.resolve_left hmoves.1
        rcases List.mem_cons.mp ht with rfl | ht
        · exact absurd htext hmoves.2
        · exact .inr ⟨t, ht, htext⟩
  | case4 => exact nofun
  | case5 s rest path hliteral entries hentry hrecursive ih =>
      intro p hp
      obtain ⟨found, hfound, hp⟩ := List.mem_flatMap.mp hp
      have hentries : Tree.entriesNamed entries = true := FileSystem.isNamed_of_entry? hnamed hentry
      have hbelow := Tree.isBelow_of_mem_entryDescendants entries hentries found hfound
      obtain ⟨hspelled, hstands⟩ := hpath.of_isBelow hbelow
      dsimp only at hp
      split at hp
      · split at hp
        · rw [List.mem_singleton.mp hp]
          exact hspelled
        · cases hp
      · rename_i t more
        split at hp
        · refine ih found.1 (fun s hs => hdown s ?_) hstands (.inl hspelled) p hp
          exact List.mem_cons_of_mem _ (List.mem_cons_of_mem _ hs)
        · cases hp
  | case6 s rest path hliteral entries hentry hrecursive names ih ih' =>
      obtain ⟨hs, hrest⟩ := List.forall_mem_cons.mp hdown
      intro p hp
      rw [hs.specialNames_eq (by simpa using hliteral), List.flatMap_nil, List.append_nil] at hp
      obtain ⟨name, hname, hp⟩ := List.mem_flatMap.mp hp
      obtain ⟨entry, hmem, rfl⟩ := List.mem_map.mp (List.mem_filter.mp hname).1
      have hentries : Tree.entriesNamed entries = true := FileSystem.isNamed_of_entry? hnamed hentry
      obtain ⟨hspelled, hstands⟩ := hpath.of_name (Tree.isNamed_of_mem hentries hmem).1
      exact ih entry.1 hrest hstands (.inl hspelled) p hp
  | case7 => exact nofun

/-- Whether a segment leads down when it is followed, or stays as a `.` that is written. -/
def goesDown (text : String) : Bool :=
  text != ".." &&
    match Segment.parse text with
    | .ok s => s.isLiteral || (specialNames s).isEmpty
    | .error _ => true

/-- A segment keeps its text. -/
theorem text_of_parse {text : String} (h : Segment.parse text = .ok s) : s.text = text := by
  obtain ⟨found, -, hs⟩ := bind_eq_ok_iff.mp h
  rw [← Except.ok.inj hs]

/-- A segment of a pattern that goes down goes down. -/
theorem down_of_parse {text : String} (hslash : '/' ∉ text.toList) (hdown : goesDown text = true)
    (h : Segment.parse text = .ok s) : s.Down := by
  have htext := text_of_parse h
  unfold goesDown at hdown
  rw [h, Bool.and_eq_true, bne_iff_ne] at hdown
  refine ⟨htext ▸ hslash, htext ▸ hdown.1, fun hliteral => ?_⟩
  simpa [hliteral] using hdown.2

/-- A segment is left out only before a recursive one. -/
theorem collapse_cons (s : Segment) (rest : List Segment) :
    collapse (s :: rest) = s :: collapse rest ∨
      collapse (s :: rest) = collapse rest ∧ ∃ t ∈ collapse rest, t.isRecursive = true := by
  rw [collapse]
  rcases collapse rest with _ | ⟨t, more⟩
  · exact .inl rfl
  · dsimp only
    split
    · rename_i hboth
      exact .inr ⟨rfl, t, List.mem_cons_self, (Bool.and_eq_true_iff.mp hboth).2⟩
    · exact .inl rfl

/-- To collapse segments is to leave some out. -/
theorem mem_of_mem_collapse {segments : List Segment} (h : s ∈ collapse segments) :
    s ∈ segments := by
  induction segments with
  | nil => exact h
  | cons first rest ih =>
      rcases collapse_cons first rest with heq | ⟨heq, -⟩ <;> rw [heq] at h
      · rcases List.mem_cons.mp h with rfl | h
        · exact List.mem_cons_self
        · exact List.mem_cons_of_mem _ (ih h)
      · exact List.mem_cons_of_mem _ (ih h)

/-- A recursive segment is not a `.`. -/
theorem text_ne_of_isRecursive (hparse : Segment.parse s.text = .ok s) (h : s.isRecursive = true) :
    s.text ≠ "." := by
  intro htext
  rw [htext] at hparse
  rw [← Except.ok.inj hparse] at h
  revert h
  decide +kernel

/-- If not all segments are a `.`, this is so without repeated `**`. -/
theorem exists_mem_collapse {segments : List Segment}
    (hparse : ∀ s ∈ segments, Segment.parse s.text = .ok s) (h : ∃ s ∈ segments, s.text ≠ ".") :
    ∃ s ∈ collapse segments, s.text ≠ "." := by
  induction segments with
  | nil => exact h
  | cons first rest ih =>
      have hrest := fun s hs => hparse s (List.mem_cons_of_mem _ hs)
      rcases collapse_cons first rest with heq | ⟨heq, t, ht, hrecursive⟩ <;> rw [heq]
      · obtain ⟨s, hs, htext⟩ := h
        rcases List.mem_cons.mp hs with rfl | hs
        · exact ⟨s, List.mem_cons_self, htext⟩
        · obtain ⟨t, ht, htext⟩ := ih hrest ⟨s, hs, htext⟩
          exact ⟨t, List.mem_cons_of_mem _ ht, htext⟩
      · exact ⟨t, ht, text_ne_of_isRecursive (hrest t (mem_of_mem_collapse ht)) hrecursive⟩

/-- A pattern has a segment to follow that is not a `.`. -/
theorem exists_mem_course (h : isPattern p.text = true) :
    ∃ segment ∈ segmentTexts (course p), segment ≠ "." := by
  obtain ⟨c, hc, hmem⟩ : ∃ c, (c = '*' ∨ c = '?') ∧ c ∈ p.text.toList := by
    rcases Bool.or_eq_true_iff.mp h with hstar | hany
    · exact ⟨'*', .inl rfl, by simpa using hstar⟩
    · exact ⟨'?', .inr rfl, by simpa using hany⟩
  have hslash : c ≠ '/' := by rcases hc with rfl | rfl <;> decide
  have hdot : c ∉ ".".toList := by rcases hc with rfl | rfl <;> decide
  obtain ⟨piece, hpiece, hmem⟩ := Text.exists_mem_splitAt hslash hmem
  refine ⟨String.ofList piece, mem_course_of_mem_segments (List.mem_map_of_mem hpiece) ?_, ?_⟩
  · intro hempty
    rw [← String.toList_ofList (l := piece), hempty] at hmem
    cases hmem
  · intro heq
    rw [← String.toList_ofList (l := piece), heq] at hmem
    exact hdot hmem

/-- A pattern joined to a path is a pattern. -/
theorem isPattern_join {source : String} (h : isPattern source = true) (base : Path) :
    isPattern (base.join ⟨source⟩).text = true := by
  have happend : ∀ front, isPattern (front ++ source) = true := by
    intro front
    unfold isPattern at h ⊢
    rw [Bool.or_eq_true_iff] at h ⊢
    rw [String.toList_append]
    rcases h with h | h
    · exact .inl (by simp_all)
    · exact .inr (by simp_all)
  unfold Path.join
  split
  · exact h
  · split
    · exact happend _
    · exact happend _

/-- **The paths that a pattern stands for** are spelled without dots. -/
theorem spelled_of_mem_expand (hnamed : fs.root.isNamed = true)
    (hdown : ∀ segment ∈ p.segments, goesDown segment = true) (hpattern : isPattern p.text = true)
    {paths : List Path} (h : expand fs p = .ok paths) : ∀ q ∈ paths, q.Spelled false := by
  obtain ⟨-, segments, hsegments, rfl⟩ := expand_eq_ok.mp h
  obtain ⟨hparsed, hsources⟩ := mem_of_mapM hsegments
  have hsegment : ∀ s ∈ segments, s.Down ∧ Segment.parse s.text = .ok s := by
    intro s hs
    obtain ⟨text, htext, hparse⟩ := hsources s hs
    have hmem := mem_segments_of_mem_course htext
    refine ⟨down_of_parse (Path.slash_notMem_of_mem_segments hmem) (hdown text hmem) hparse, ?_⟩
    rwa [text_of_parse hparse]
  have hleaves : ∃ s ∈ collapse segments, s.text ≠ "." := by
    obtain ⟨text, htext, hne⟩ := exists_mem_course hpattern
    obtain ⟨s, hs, hparse⟩ := hparsed text htext
    exact exists_mem_collapse (fun s hs => (hsegment s hs).2) ⟨s, hs, text_of_parse hparse ▸ hne⟩
  have horigin : Stands (origin p) := by
    unfold origin
    split
    · exact ⟨by decide, .inr ⟨by decide +kernel, by decide +kernel⟩⟩
    · exact ⟨by decide, .inl (by decide +kernel)⟩
  intro q hq
  split at hq
  · cases hq
  · exact spelled_of_mem_expandFrom hnamed (fun s hs => (hsegment s (mem_of_mem_collapse hs)).1)
      horigin (.inr hleaves) q hq

end Glob

namespace Discovered

variable {fs : FileSystem} {language : Language}

/-- What is there after new paths are added was there or is one of them. -/
theorem mem_of_mem_addNew {p : Path} {files paths : List Path}
    (h : p ∈ addNew files paths) : p ∈ files ∨ p ∈ paths := by
  induction paths generalizing files with
  | nil => exact .inl h
  | cons first rest ih =>
      unfold addNew at h
      split at h
      · rcases ih h with hfile | hrest
        · exact .inl hfile
        · exact .inr (List.mem_cons_of_mem _ hrest)
      · rcases ih h with hfile | hrest
        · rcases List.mem_append.mp hfile with hfile | hfirst
          · exact .inl hfile
          · exact .inr (List.mem_cons.mpr (.inl (List.mem_singleton.mp hfirst)))
        · exact .inr (List.mem_cons_of_mem _ hrest)

/-- The files that a path stands for are spelled like it. -/
theorem spelled_of_mem_filesAt (hnamed : fs.root.isNamed = true) {path : Path} {dot : Bool}
    (hpath : path.Spelled dot) {files : List Path} (h : filesAt fs language path = some files) :
    ∀ p ∈ files, p.Spelled dot := by
  intro p hp
  unfold filesAt at h
  split at h
  · obtain rfl := Option.some.inj h
    rw [List.mem_singleton.mp hp]
    exact hpath
  · rename_i hentry
    obtain rfl := Option.some.inj h
    have htree := FileSystem.isNamed_of_entry? hnamed hentry
    exact (Tree.isBelow_of_mem_sourceFiles _ htree p hp).spelled hpath
  · cases h

/-- Whether the files of a source are spelled with a `.` at the start: its path starts
with one, and it is no pattern. -/
def keepsDot (base : Path) (source : String) : Bool :=
  !Glob.isPattern source && (base.join ⟨source⟩).startsHere

/-- **The spelling of a found file**: it has no `..`, and whether it starts with
a `.` is told by its source. -/
theorem spelled_of_mem_ofSource (hnamed : fs.root.isNamed = true) {base : Path} {source : String}
    (hdown : ∀ segment ∈ (base.join ⟨source⟩).segments, Glob.goesDown segment = true) :
    ∀ p ∈ (ofSource fs base language source).1, p.Spelled (keepsDot base source) := by
  intro p hp
  unfold ofSource at hp
  dsimp only at hp
  unfold keepsDot
  split at hp
  · rename_i hpattern
    rw [hpattern, Bool.not_true, Bool.false_and]
    split at hp
    · rename_i paths hpaths
      obtain ⟨path, hpath, hp⟩ := List.mem_flatMap.mp hp
      have hspelled :=
        Glob.spelled_of_mem_expand hnamed hdown (Glob.isPattern_join hpattern base)
          hpaths path hpath
      rcases hfiles : filesAt fs language path with _ | files <;> rw [hfiles] at hp
      · cases hp
      · exact spelled_of_mem_filesAt hnamed hspelled hfiles p hp
    · cases hp
  · rename_i hliteral
    rw [Bool.not_eq_true] at hliteral
    rw [hliteral, Bool.not_false, Bool.true_and]
    have hup : .up ∉ (base.join ⟨source⟩).components := by
      refine Path.up_notMem_components fun hmem => ?_
      have hnot : Glob.goesDown ".." = false := by decide +kernel
      rw [hdown ".." hmem] at hnot
      cases hnot
    split at hp
    · rename_i files hfiles
      exact spelled_of_mem_filesAt hnamed ⟨hup, rfl⟩ hfiles p hp
    · cases hp

end Discovered

end StringHarvest
