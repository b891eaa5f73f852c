import StringHarvest.Proofs.Files.FoundOnce

/-!
# The order of the files that are found

Sources are taken from first to last, and each of them adds those of its files that are not there
yet, in the order of paths. So what two lists of sources give together is what the first one gives,
followed by what is new in the second (`discover_append`), and all that is known about single
sources carries over to lists.

**Main theorem** (`discover_in_order`): more sources only add files at the end; no path is there
twice; the files that a source adds stand together and ascend strictly; and which paths are found
depends only on which sources there are, not on their order or on how often they occur.

Paths are ordered by their components, lexicographically. The order is a linear one of components
(`Path.compare_eq_eq_iff`), so what is sorted and holds no path twice ascends strictly.
-/

namespace StringHarvest

/-! ### The order of paths -/

instance : Std.TransCmp Component.compare :=
  inferInstanceAs (Std.TransCmp (compareLex (compareOn Component.rank) (compareOn Component.text)))

instance : Std.LawfulEqCmp Component.compare where
  eq_of_compare {a b} h := by
    obtain ⟨hrank, htext⟩ := Ordering.then_eq_eq.mp h
    rw [Nat.compare_eq_eq] at hrank
    rw [Std.LawfulEqOrd.compare_eq_iff_eq] at htext
    cases a <;> cases b <;> cases hrank <;> first | rfl | exact congrArg Component.name htext

namespace Path

/-- Components are compared one by one. -/
theorem compareComponents_eq (cs ds : List Component) :
    compareComponents cs ds = List.compareLex Component.compare cs ds := by
  induction cs generalizing ds with
  | nil => cases ds <;> rfl
  | cons c cs ih =>
      cases ds with
      | nil => rfl
      | cons d ds => rw [compareComponents, ih, List.compareLex_cons_cons]

/-- So are paths. -/
theorem compare_eq_compareLex (p q : Path) :
    p.compare q = List.compareLex Component.compare p.components q.components :=
  compareComponents_eq _ _

instance : Std.TransCmp Path.compare where
  eq_swap {p q} := by
    rw [compare_eq_compareLex, compare_eq_compareLex]
    exact Std.OrientedCmp.eq_swap
  isLE_trans {p q r} hpq hqr := by
    rw [compare_eq_compareLex] at hpq hqr ⊢
    exact Std.TransCmp.isLE_trans hpq hqr

/-- Paths are equal in the order exactly if they are the same. -/
theorem compare_eq_eq_iff {p q : Path} : p.compare q = .eq ↔ p.components = q.components := by
  rw [compare_eq_compareLex, Std.LawfulEqCmp.compare_eq_iff_eq]

end Path

namespace Discovered

/-- Sorted paths are in order. -/
theorem pairwise_sortPaths (paths : List Path) :
    (sortPaths paths).Pairwise fun p q => p.compare q ≠ .gt := by
  have hle : ∀ p q : Path, (p.compare q != .gt) = (p.compare q).isLE := fun p q => by
    cases p.compare q <;> rfl
  have hsorted : (sortPaths paths).Pairwise fun p q => (p.compare q != .gt) = true := by
    refine List.pairwise_mergeSort (fun p q r => ?_) (fun p q => ?_) paths
    · rw [hle, hle, hle]
      exact Std.TransCmp.isLE_trans
    · have hswap : q.compare p = (p.compare q).swap := Std.OrientedCmp.eq_swap
      rw [hle, hle, hswap]
      cases p.compare q <;> rfl
  exact hsorted.imp bne_iff_ne.mp

/-! ### What is new -/

/-- Whether a path is none of the files. -/
def isNew (files : List Path) (p : Path) : Bool := !files.any p.same

/-- A path is new if its components are not among those that were found. -/
theorem isNew_iff {files : List Path} {p : Path} :
    isNew files p = true ↔ p.components ∉ files.map Path.components := by
  rw [isNew, Bool.not_eq_true', ← Bool.not_eq_true, any_same_iff]

/-- Files with those of others behind them that are new. -/
def extend (files more : List Path) : List Path := files ++ more.filter (isNew files)

/-- Nothing but what is new in either list is new in both together. -/
theorem isNew_extend (files more : List Path) (p : Path) :
    isNew (extend files more) p = (isNew files p && isNew more p) := by
  rw [Bool.eq_iff_iff, Bool.and_eq_true, isNew_iff, isNew_iff, isNew_iff, extend, List.map_append,
    List.mem_append, not_or]
  refine and_congr_right fun hfiles => not_congr ?_
  -- a path of `more` that is left out is one of `files`
  simp only [List.mem_map, List.mem_filter]
  constructor
  · rintro ⟨q, ⟨hq, -⟩, heq⟩
    exact ⟨q, hq, heq⟩
  · rintro ⟨q, hq, heq⟩
    exact ⟨q, ⟨hq, isNew_iff.mpr (heq ▸ hfiles)⟩, heq⟩

/-- What is new is added in order, however it is grouped. -/
theorem extend_assoc (files more others : List Path) :
    extend (extend files more) others = extend files (extend more others) := by
  have hnew : isNew (extend files more) = fun p => isNew files p && isNew more p :=
    funext (isNew_extend files more)
  simp only [extend] at hnew ⊢
  rw [hnew, List.filter_append, List.filter_filter, List.append_assoc]

/-- **What a source adds** is what is new in it. -/
theorem addNew_eq_extend (files paths : List Path) :
    addNew files paths = extend files (addNew [] paths) := by
  induction paths generalizing files with
  | nil => simp [addNew, extend]
  | cons p rest ih =>
      have hfirst : addNew [] (p :: rest) = extend [p] (addNew [] rest) := ih [p]
      rw [hfirst, ← extend_assoc, addNew]
      split
      · rename_i hthere
        have hold : extend files [p] = files := by simp [extend, isNew, hthere]
        rw [hold]
        exact ih files
      · rename_i hthere
        have hnew : extend files [p] = files ++ [p] := by simp [extend, isNew, hthere]
        rw [hnew]
        exact ih (files ++ [p])

/-- What is found first, followed by what is new in what is found then. -/
def followedBy (found more : Discovered) : Discovered :=
  { files := extend found.files more.files, skipped := found.skipped + more.skipped }

/-- So are whole findings. -/
theorem followedBy_assoc (a b c : Discovered) :
    (a.followedBy b).followedBy c = a.followedBy (b.followedBy c) := by
  simp only [followedBy, extend_assoc, Nat.add_assoc]

variable (fs : FileSystem) (base : Path) (language : Language)

/-- To add a source is to have its findings follow. -/
theorem add_eq_followedBy (found : Discovered) (source : String) :
    add fs base language found source = found.followedBy (discover fs base [source] language) := by
  have hadd : ∀ found : Discovered, add fs base language found source =
      { files := addNew found.files (sortPaths (ofSource fs base language source).1)
        skipped := found.skipped + (ofSource fs base language source).2 } := fun _ => rfl
  have hsingle : discover fs base [source] language = add fs base language {} source := rfl
  rw [hsingle, hadd, hadd, followedBy, addNew_eq_extend, Nat.zero_add]

/-- To add sources is to have the findings of all of them follow. -/
theorem foldl_add_eq (found : Discovered) (sources : List String) :
    sources.foldl (add fs base language) found =
      found.followedBy (discover fs base sources language) := by
  induction sources generalizing found with
  | nil => simp [discover, followedBy, extend]
  | cons source sources ih =>
      have hcons : discover fs base (source :: sources) language =
          (discover fs base [source] language).followedBy (discover fs base sources language) :=
        ih (add fs base language {} source)
      rw [List.foldl_cons, ih, add_eq_followedBy, hcons, followedBy_assoc]

/-- **Two lists of sources** give what the first one gives, followed by what
is new in the second. -/
theorem discover_append (sources more : List String) :
    discover fs base (sources ++ more) language =
      (discover fs base sources language).followedBy (discover fs base more language) := by
  rw [discover, List.foldl_append, foldl_add_eq]
  rfl

/-! ### The files of one source -/

/-- What is new is a part of what is found. -/
theorem addNew_sublist (paths : List Path) : (addNew [] paths).Sublist paths := by
  induction paths with
  | nil => exact List.Sublist.refl []
  | cons p rest ih =>
      have hfirst : addNew [] (p :: rest) = p :: (addNew [] rest).filter (isNew [p]) :=
        addNew_eq_extend [p] rest
      rw [hfirst]
      exact (List.filter_sublist.trans ih).cons_cons p

/-- **The files of one source ascend strictly.** -/
theorem pairwise_discover_singleton (source : String) :
    (discover fs base [source] language).files.Pairwise fun p q => p.compare q = .lt := by
  have hsorted :=
    (pairwise_sortPaths (ofSource fs base language source).1).sublist (addNew_sublist _)
  have hnodup := List.pairwise_map.mp (collects_discover fs base language [source]).nodup
  refine (hsorted.and hnodup).imp fun {p q} h => ?_
  obtain ⟨hle, hne⟩ := h
  have hne' := mt Path.compare_eq_eq_iff.mp hne
  cases hcompare : p.compare q with
  | lt => rfl
  | eq => exact absurd hcompare hne'
  | gt => exact absurd hcompare hle

/-! ### Which paths are found -/

/-- The paths of sources are those of each of them. -/
theorem mem_discover_iff {sources : List String} {components : List Component} :
    components ∈ (discover fs base sources language).files.map Path.components ↔
      ∃ source ∈ sources,
        components ∈ (discover fs base [source] language).files.map Path.components := by
  simp only [(collects_discover fs base language _).mem_iff, found, List.mem_map, List.mem_flatMap,
    List.mem_singleton]
  constructor
  · rintro ⟨p, ⟨source, hsource, hp⟩, hcomponents⟩
    exact ⟨source, hsource, p, ⟨source, rfl, hp⟩, hcomponents⟩
  · rintro ⟨source, hsource, p, ⟨only, honly, hp⟩, hcomponents⟩
    exact ⟨p, ⟨source, hsource, honly ▸ hp⟩, hcomponents⟩

/-- Lists with the same sources give the same paths. -/
theorem perm_discover {sources others : List String} (h : ∀ s, s ∈ sources ↔ s ∈ others) :
    ((discover fs base sources language).files.map Path.components).Perm
      ((discover fs base others language).files.map Path.components) := by
  refine (List.perm_ext_iff_of_nodup (collects_discover fs base language sources).nodup
    (collects_discover fs base language others).nodup).mpr fun components => ?_
  rw [mem_discover_iff, mem_discover_iff]
  simp only [h]

/-- The skipped files of the sources are added up. -/
theorem foldl_skipped (sources : List String) (count : Nat) :
    sources.foldl (fun count source => count + (discover fs base [source] language).skipped) count =
      count + (discover fs base sources language).skipped := by
  induction sources generalizing count with
  | nil => rfl
  | cons source sources ih =>
      have hskipped := congrArg skipped (discover_append fs base language [source] sources)
      rw [List.singleton_append] at hskipped
      rw [List.foldl_cons, ih, hskipped, Nat.add_assoc]
      rfl

/-- **Files are found in order.** The files of some sources are the first ones of the files of more
sources, and what is skipped is counted for each source. No two files are the same path. What a
source adds are the files it gives alone that were not there before; they stand together and ascend
strictly. The paths that are found are those of the single sources, so another order of the sources,
or some of them repeated, gives the same paths in another order. -/
theorem discover_in_order :
    (∀ sources more, (discover fs base sources language).files <+:
      (discover fs base (sources ++ more) language).files) ∧
    (∀ sources, (discover fs base sources language).skipped =
      sources.foldl (fun count source => count + (discover fs base [source] language).skipped) 0) ∧
    (∀ sources, (discover fs base sources language).files.Pairwise fun p q => p.same q = false) ∧
    (∀ before source after, ∃ block rest,
      (discover fs base (before ++ source :: after) language).files =
        (discover fs base before language).files ++ block ++ rest ∧
      block = (discover fs base [source] language).files.filter
        (isNew (discover fs base before language).files) ∧
      block.Pairwise fun p q => p.compare q = .lt) ∧
    (∀ sources components,
      components ∈ (discover fs base sources language).files.map Path.components ↔
        ∃ source ∈ sources,
          components ∈ (discover fs base [source] language).files.map Path.components) ∧
    ∀ sources others, (∀ s, s ∈ sources ↔ s ∈ others) →
      ((discover fs base sources language).files.map Path.components).Perm
        ((discover fs base others language).files.map Path.components) := by
  refine ⟨fun sources more => ?_, fun sources => ?_, fun sources => ?_,
    fun before source after => ?_, fun _ _ => mem_discover_iff fs base language,
    fun _ _ => perm_discover fs base language⟩
  · rw [discover_append]
    exact List.prefix_append _ _
  · rw [foldl_skipped, Nat.zero_add]
  · have hnodup := (collects_discover fs base language sources).nodup
    refine (List.pairwise_map.mp hnodup).imp fun {p q} hne => ?_
    simpa [Path.same] using hne
  · have hsplit : discover fs base (before ++ source :: after) language =
        ((discover fs base before language).followedBy
          (discover fs base [source] language)).followedBy
          (discover fs base after language) := by
      rw [← discover_append, ← discover_append, List.append_assoc, List.singleton_append]
    rw [hsplit]
    exact ⟨_, _, rfl, rfl, (pairwise_discover_singleton fs base language source).filter _⟩

/-- A directory, a pattern, a missing file and the directory's file once more: in another order and
with repetitions they give the same paths. -/
theorem discover_in_order_repeated :
    let fs : FileSystem :=
      ⟨.directory [("b.js", .file none), ("src", .directory [("a.js", .file none)])], []⟩
    let sources := ["src", "b.*", "gone.js", "src/./a.js"]
    let others := ["b.*", "src/./a.js", "gone.js", "src", "b.*"]
    let files := (discover fs ⟨""⟩ sources .javascript).files
    let files' := (discover fs ⟨""⟩ others .javascript).files
    files = [⟨"src/a.js"⟩, ⟨"b.js"⟩] ∧ files' = [⟨"b.js"⟩, ⟨"src/./a.js"⟩] ∧
      (files.map Path.components).Perm (files'.map Path.components) := by
  intro fs sources others files files'
  refine ⟨by decide +kernel, by decide +kernel, ?_⟩
  obtain ⟨-, -, -, -, -, hperm⟩ := discover_in_order fs ⟨""⟩ .javascript
  exact hperm sources others (by simp [sources, others]; tauto)

end Discovered

end StringHarvest
