import Mathlib.Data.List.Nodup
import StringHarvest.Proofs.Path.Joins

/-!
# Components, and where paths lead

The components of a joined path are those of its parts (`components_join`), and so a name that is
put below a path is one more component (`components_join_name`).

A path leads to its `target`: its components without `.`, each `..` taking back the
name before it. Paths with equal components have equal targets, and the converse fails
in two ways only (`Spelled.components_inj`): with a `..` in one of the paths, and with
a `.` at the start of one of them.
-/

namespace StringHarvest

/-- The way after one more component: `.` stays, and `..` takes a name back. -/
def Component.follow (way : List Component) : Component → List Component
  | .here => way
  | .up =>
    match way.getLast? with
    | some (.name _) => way.dropLast
    | some .root => way
    | _ => way ++ [.up]
  | c => way ++ [c]

namespace Path

variable {base p q : Path}

/-! ### Segments and components -/

/-- A segment stands for the step up or for itself. -/
theorem component?_eq_some {segment : String} {c : Component} (h : component? segment = some c) :
    segment = ".." ∧ c = .up ∨ c = .name segment := by
  unfold component? at h
  split at h
  · cases h
  · split at h
    · rename_i hup
      exact .inl ⟨beq_iff_eq.mp hup, (Option.some.inj h).symm⟩
    · exact .inr (Option.some.inj h).symm

/-- What the first segment of a path stands for. -/
def leading (isAbsolute : Bool) (first : String) : List Component :=
  if first = "" then if isAbsolute then [.root] else []
  else if first = "." then [.here]
  else (component? first).toList

/-- The components of a path are those of its segments, with what it starts with. -/
theorem components_eq {first : String} {rest : List String} (h : p.segments = first :: rest) :
    p.components = leading p.isAbsolute first ++ rest.filterMap component? := by
  unfold components leading
  rw [h]
  split
  · rename_i heq
    obtain ⟨rfl, rfl⟩ := List.cons.inj heq
    rfl
  · rename_i heq
    obtain ⟨rfl, rfl⟩ := List.cons.inj heq
    rfl
  · rename_i hempty hdot
    have hfirst : first ≠ "" := fun heq => hempty rest (by rw [heq])
    have hsecond : first ≠ "." := fun heq => hdot rest (by rw [heq])
    rw [if_neg hfirst, if_neg hsecond, List.filterMap_cons]
    cases component? first <;> rfl

/-- The first segment stands for one component at most. -/
theorem leading_cases (isAbsolute : Bool) (first : String) :
    leading isAbsolute first = [] ∨
      ∃ c, leading isAbsolute first = [c] ∧ (c = .up → first = "..") := by
  unfold leading
  split
  · cases isAbsolute
    · exact .inl rfl
    · exact .inr ⟨.root, rfl, nofun⟩
  · split
    · exact .inr ⟨.here, rfl, nofun⟩
    · rcases hfirst : component? first with _ | c
      · exact .inl rfl
      · refine .inr ⟨c, rfl, ?_⟩
        rintro rfl
        rcases component?_eq_some hfirst with ⟨hup, -⟩ | hname
        · exact hup
        · cases hname

/-- Segments behind the first one stand for names and for `..` only. -/
theorem eq_up_or_name_of_mem {segments : List String} {c : Component}
    (h : c ∈ segments.filterMap component?) : c = .up ∨ ∃ text, c = .name text := by
  obtain ⟨segment, -, hsegment⟩ := List.mem_filterMap.mp h
  rcases component?_eq_some hsegment with ⟨-, hup⟩ | hname
  · exact .inl hup
  · exact .inr ⟨segment, hname⟩

/-- Behind the start, no component stands for the current directory. -/
theorem here_notMem_filterMap (segments : List String) :
    Component.here ∉ segments.filterMap component? := by
  intro hmem
  rcases eq_up_or_name_of_mem hmem with hup | ⟨text, hname⟩
  · cases hup
  · cases hname

/-- A `.` is a component only at the start of a path. -/
theorem here_notMem_tail (p : Path) : Component.here ∉ p.components.tail := by
  obtain ⟨first, rest, hp⟩ := List.exists_cons_of_ne_nil p.segments_ne_nil
  have hrest := here_notMem_filterMap rest
  rw [components_eq hp]
  rcases leading_cases p.isAbsolute first with hnil | ⟨c, hc, -⟩
  · rw [hnil, List.nil_append]
    exact fun hmem => hrest (List.mem_of_mem_tail hmem)
  · rwa [hc, List.singleton_append, List.tail_cons]

/-- A `.` is the first component only if it is the first segment. -/
theorem segments_of_components_here {more : List Component} (h : p.components = .here :: more) :
    ∃ rest, p.segments = "." :: rest ∧ rest.filterMap component? = more := by
  obtain ⟨first, rest, hp⟩ := List.exists_cons_of_ne_nil p.segments_ne_nil
  have hrest := here_notMem_filterMap rest
  rw [components_eq hp] at h
  unfold leading at h
  split at h
  · split at h
    · cases h
    · rw [List.nil_append] at h
      exact absurd (h ▸ List.mem_cons_self) hrest
  · split at h
    · rename_i hdot
      exact ⟨rest, hdot ▸ hp, (List.cons.inj h).2⟩
    · rcases hfirst : component? first with _ | c <;> rw [hfirst] at h
      · rw [Option.toList_none, List.nil_append] at h
        exact absurd (h ▸ List.mem_cons_self) hrest
      · obtain ⟨rfl, -⟩ := List.cons.inj h
        rcases component?_eq_some hfirst with ⟨-, hup⟩ | hname
        · cases hup
        · cases hname

/-- A path without a segment `..` has no such component. -/
theorem up_notMem_components (h : ".." ∉ p.segments) : Component.up ∉ p.components := by
  obtain ⟨first, rest, hp⟩ := List.exists_cons_of_ne_nil p.segments_ne_nil
  rw [hp, List.mem_cons, not_or] at h
  rw [components_eq hp, List.mem_append, not_or]
  constructor
  · rcases leading_cases p.isAbsolute first with hnil | ⟨c, hc, hup⟩
    · simp [hnil]
    · rw [hc, List.mem_singleton]
      exact fun heq => h.1 (hup heq.symm).symm
  · intro hmem
    obtain ⟨segment, hsegment, hcomponent⟩ := List.mem_filterMap.mp hmem
    rcases component?_eq_some hcomponent with ⟨rfl, -⟩ | hname
    · exact h.2 hsegment
    · cases hname

/-! ### Joined paths -/

/-- Whether a path is absolute is told by its front. -/
theorem isAbsolute_append {front : String} (h : front ≠ "") (back : String) :
    (⟨front ++ back⟩ : Path).isAbsolute = (⟨front⟩ : Path).isAbsolute := by
  unfold isAbsolute
  rw [Bool.eq_iff_iff, String.startsWith_string_iff, String.startsWith_string_iff,
    String.toList_append]
  obtain ⟨c, cs, hfront⟩ := List.exists_cons_of_ne_nil (mt String.toList_eq_nil_iff.mp h)
  simp [hfront]

/-- So a joined path is absolute as its base is. -/
theorem isAbsolute_join (hp : p.isAbsolute = false) (hbase : base.text ≠ "") :
    (base.join p).isAbsolute = base.isAbsolute := by
  unfold join
  rw [if_neg (by simp [hp, hbase])]
  split
  · exact isAbsolute_append hbase _
  · rw [String.append_assoc]
    exact isAbsolute_append hbase _

/-- **The components of a joined path.** A leading `.` of the lower path does not count. -/
theorem components_join (hp : p.isAbsolute = false) (hbase : base.text ≠ "") :
    (base.join p).components = base.components ++ p.segments.filterMap component? := by
  obtain ⟨hne, hsegments⟩ := base.segments_eq_openSegments
  obtain ⟨first, rest, hopen⟩ := List.exists_cons_of_ne_nil hne
  have hbaseComponents :
      base.components = leading base.isAbsolute first ++ rest.filterMap component? := by
    rcases hsegments with hsegments | hsegments
    · exact components_eq (hsegments.trans hopen)
    · rw [hopen, List.cons_append] at hsegments
      rw [components_eq hsegments, List.filterMap_append]
      exact congrArg _ (List.append_nil _)
  have hjoin : (base.join p).segments = first :: (rest ++ p.segments) := by
    rw [segments_join hp hbase, hopen, List.cons_append]
  rw [components_eq hjoin, hbaseComponents, isAbsolute_join hp hbase, List.filterMap_append,
    List.append_assoc]

/-! ### Names -/

/-- Whether a text can be the name of a file or of a directory. -/
def isName (text : String) : Bool :=
  text != "" && text != "." && text != ".." && !text.toList.contains '/'

/-- A name is a segment that stands for itself. -/
theorem isName_iff {text : String} :
    isName text = true ↔ text ≠ "" ∧ text ≠ "." ∧ text ≠ ".." ∧ '/' ∉ text.toList := by
  simp [isName, and_assoc]

/-- A text without slashes is a single segment. -/
theorem segments_of_slash_notMem {text : String} (h : '/' ∉ text.toList) :
    (⟨text⟩ : Path).segments = [text] := by
  have hsegments := segments_intercalate (List.cons_ne_nil text []) (by simpa using h)
  rwa [String.intercalate_singleton] at hsegments

/-- A text without slashes is not absolute. -/
theorem isAbsolute_of_slash_notMem {text : String} (h : '/' ∉ text.toList) :
    (⟨text⟩ : Path).isAbsolute = false := by
  rw [← Bool.not_eq_true, isAbsolute_iff, segments_of_slash_notMem h]
  simp

/-- **A name below a path** is one more component. -/
theorem components_join_name {name : String} (h : isName name = true) (path : Path) :
    (path.join ⟨name⟩).components = path.components ++ [.name name] := by
  obtain ⟨hempty, hdot, hup, hslash⟩ := isName_iff.mp h
  have hcomponent : component? name = some (.name name) := by simp [component?, hempty, hdot, hup]
  have habsolute := isAbsolute_of_slash_notMem hslash
  have hsegments := segments_of_slash_notMem hslash
  by_cases hpath : path.text = ""
  · obtain rfl : path = ⟨""⟩ := congrArg Path.mk hpath
    rw [join_of_empty rfl, components_eq hsegments]
    simp [leading, hempty, hdot, hcomponent, components, segments, Text.splitAt, isAbsolute]
  · rw [components_join habsolute hpath, hsegments]
    simp [hcomponent]

/-! ### Where paths lead -/

/-- Where a path leads to: its components without `.` and with every `..` resolved. -/
def target (p : Path) : List Component := p.components.foldl Component.follow []

/-- Without steps up, a way goes down along its components. -/
theorem foldl_follow_of_up_notMem {components : List Component} (h : .up ∉ components)
    (way : List Component) :
    components.foldl Component.follow way = way ++ components.filter (· != .here) := by
  induction components generalizing way with
  | nil => simp
  | cons c components ih =>
      rw [List.mem_cons, not_or] at h
      rw [List.foldl_cons, ih h.2]
      cases c with
      | up => exact absurd rfl h.1
      | here => rfl
      | root | name => simp [Component.follow]

/-- Without `..` a path leads to its components, less a leading `.`. -/
theorem target_of_up_notMem (h : .up ∉ p.components) :
    p.target = p.components.filter (· != .here) :=
  foldl_follow_of_up_notMem h []

/-- Whether a path starts with a `.`. -/
def startsHere (p : Path) : Bool := p.components.head? == some .here

/-- A leading `.` is all that is lost without the components `.`. -/
theorem components_eq_filter (p : Path) :
    p.components = (if p.startsHere then [.here] else []) ++ p.components.filter (· != .here) := by
  have htail := p.here_notMem_tail
  unfold startsHere
  generalize p.components = components at htail ⊢
  rcases components with _ | ⟨c, rest⟩
  · rfl
  · have hrest : rest.filter (· != .here) = rest :=
      List.filter_eq_self.mpr fun d hd => bne_iff_ne.mpr fun heq => htail (heq ▸ hd)
    by_cases hc : c = .here
    · simp [hc, hrest]
    · simp [hc, hrest]

/-- A path without `..`, which starts with a `.` or does not. -/
structure Spelled (p : Path) (dot : Bool) : Prop where
  up_notMem : .up ∉ p.components
  startsHere_eq : p.startsHere = dot

/-- **Paths that lead to the same place** have the same components if both are spelled without `..`,
and with a `.` at the start or without it. -/
theorem Spelled.components_inj {dot : Bool} (hp : p.Spelled dot) (hq : q.Spelled dot)
    (h : p.target = q.target) : p.components = q.components := by
  rw [target_of_up_notMem hp.up_notMem, target_of_up_notMem hq.up_notMem] at h
  rw [p.components_eq_filter, q.components_eq_filter, hp.startsHere_eq, hq.startsHere_eq, h]

/-- How a path is spelled is told by its components. -/
theorem Spelled.of_components {dot : Bool} (h : p.Spelled dot) (heq : q.components = p.components) :
    q.Spelled dot := by
  have hstart := h.startsHere_eq
  refine ⟨heq ▸ h.up_notMem, ?_⟩
  unfold startsHere at hstart ⊢
  rwa [heq]

/-! ### Paths below a path -/

/-- A path with components is not empty. -/
theorem text_ne_empty_of_components (h : p.components ≠ []) : p.text ≠ "" := by
  intro hempty
  obtain rfl : p = ⟨""⟩ := congrArg Path.mk hempty
  exact h rfl

/-- More components, none of which is a `.`, do not change the start. -/
theorem startsHere_of_components {more : List Component} (h : q.components = p.components ++ more)
    (hmore : .here ∉ more) : q.startsHere = p.startsHere := by
  unfold startsHere
  rw [h]
  rcases p.components with _ | ⟨c, rest⟩
  · rcases more with _ | ⟨d, more⟩
    · rfl
    · rw [List.mem_cons, not_or] at hmore
      simpa using Ne.symm hmore.1
  · rfl

/-- A path is below another one if names follow the components of that. -/
def IsBelow (p base : Path) : Prop :=
  ∃ names : List String, names ≠ [] ∧ p.components = base.components ++ names.map .name

/-- A name joined to a path is below it. -/
theorem isBelow_join {name : String} (h : isName name = true) (path : Path) :
    (path.join ⟨name⟩).IsBelow path :=
  ⟨[name], List.cons_ne_nil _ _, components_join_name h path⟩

/-- What is below something below is below. -/
theorem IsBelow.trans (h : p.IsBelow q) (h' : q.IsBelow base) : p.IsBelow base := by
  obtain ⟨names, hne, hp⟩ := h
  obtain ⟨names', -, hq⟩ := h'
  refine ⟨names' ++ names, by simp [hne], ?_⟩
  rw [hp, hq, List.map_append, List.append_assoc]

/-- A path below another one has components. -/
theorem IsBelow.components_ne_nil (h : p.IsBelow base) : p.components ≠ [] := by
  obtain ⟨names, hne, hp⟩ := h
  simp [hp, hne]

/-- Below a path the spelling stays. -/
theorem IsBelow.spelled {dot : Bool} (h : p.IsBelow base) (hbase : base.Spelled dot) :
    p.Spelled dot := by
  obtain ⟨names, -, hp⟩ := h
  refine ⟨by simp [hp, hbase.up_notMem], ?_⟩
  rw [startsHere_of_components hp (by simp), hbase.startsHere_eq]

end Path

end StringHarvest
