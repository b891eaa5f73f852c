import StringHarvest.Config.Json
import StringHarvest.Proofs.Json.Skipping

/-!
# Settings come back from their texts

A text of settings is a JSON object that holds each setting under its name, in any order, and
anything else under other names; the same goes for the objects of its groups (`Spells`). White space
may stand anywhere, and strings may be spelled with any escapes.

**Main theorem** (`ofText_spelled`): every text of settings is read as these settings, and so is the
text that is written for them. One name and a list of one name have different texts.

The members of an object are read one after the other (`Fills`). What has been read is decided by
the names of the members that were there, so their order does not matter (`Told.exists_fills`).
-/

namespace StringHarvest.Config

open Json Json.Reader

variable {σ : Type}

/-! ### Records -/

/-- What a member makes of a record: a member of a field that is not there yet is read, any value
under another name is passed. -/
inductive TakesMember (fields : List (Field σ)) (record : σ) (m : String × List Char) : σ → Prop
  | known {next : σ} {field : Field σ} (hfield : fields.find? (·.name == m.1) = some field)
      (hset : field.isSet record = false) (hread : Takes (field.read record) m.2 next) :
      TakesMember fields record m next
  | unknown (hfield : fields.find? (·.name == m.1) = none) (hvalue : IsValue m.2) :
      TakesMember fields record m record

/-- What members make of a record, one after the other. -/
inductive Fills (fields : List (Field σ)) : σ → List (String × List Char) → σ → Prop
  | nil {record : σ} : Fills fields record [] record
  | cons {record next filled : σ} {m : String × List Char} {members : List (String × List Char)}
      (hfirst : TakesMember fields record m next) (hrest : Fills fields next members filled) :
      Fills fields record (m :: members) filled

/-- The member of a record behind its key. -/
def memberValue (fields : List (Field σ)) (record : σ) (key : String) :
    Reader ((Bool × σ) ⊕ σ) := do
  match fields.find? (·.name == key) with
  | some field =>
    if field.isSet record then failAround (.duplicateField key)
    else do
      colon
      let record ← field.read record
      pure (.inl (false, record))
  | none => do
    colon
    skipValue
    pure (.inl (false, record))

/-- One step over the members of a record. -/
def memberStep (fields : List (Field σ)) : Bool × σ → Reader ((Bool × σ) ⊕ σ)
  | (isFirst, record) => do
    if ← nextMember isFirst then do
      advance
      let key ← stringBody true
      memberValue fields record key
    else pure (.inr record)

/-- The members of an object are read in a loop. -/
theorem members_eq (fields : List (Field σ)) (start : σ) :
    Config.members fields start = repeating (true, start) (memberStep fields) := rfl

/-- The value of a member is read with the colon and the white space around it. -/
theorem reads_memberValue {fields : List (Field σ)} {record next : σ} {name : String}
    {t : MemberText} (h : TakesMember fields record (name, t.value) next) {rest : List Char}
    (hrest : EndsValue rest) :
    Reads (memberValue fields record name) (t.before ++ ':' :: (t.after ++ (t.value ++ rest)))
      (.inl (false, next)) rest := by
  unfold memberValue
  cases h with
  | known hfield hset hread =>
      rw [hfield]
      simp only [hset, Bool.false_eq_true, ↓reduceIte]
      exact (reads_colon t _).bind ((hread _ _ t.after_blank hrest).bind (.pure _ _))
  | unknown hfield hvalue =>
      rw [hfield]
      exact (reads_colon t _).bind
        ((takes_skipValue hvalue _ _ t.after_blank hrest).bind (.pure _ _))

/-- **One step** over a record takes one member. -/
theorem reads_memberStep {fields : List (Field σ)} {record next : σ} {name : String}
    {t : MemberText} (hkey : SpellsString name t.key)
    (htakes : TakesMember fields record (name, t.value) next) {isFirst : Bool}
    {parts : List (List Char)} {cs : List Char} (h : Parts '}' isFirst (t.text :: parts) cs) :
    ∃ ds, Parts '}' false parts ds ∧ ds.length < cs.length ∧ ∀ rest,
      Reads (memberStep fields (isFirst, record)) (cs ++ rest) (.inl (false, next))
        (ds ++ rest) := by
  obtain ⟨body, hbody, hread⟩ := reads_stringBody hkey
  rw [MemberText.text, hbody, List.cons_append] at h
  obtain ⟨ds, hds, hlength, hnext⟩ := h.reads_nextMember
  refine ⟨ds, hds, hlength, fun rest => ?_⟩
  have hvalue := reads_memberValue htakes (hds.endsValue (.inr rfl) rest)
  simp only [List.append_assoc, List.cons_append] at hnext
  exact (hnext rest).bind ((Reads.advance _ _).bind ((hread _).bind hvalue))

/-- **All steps** over a record take its members in order. -/
theorem runs_memberStep {fields : List (Field σ)} {record filled : σ}
    {members : List (String × List Char)} (hfills : Fills fields record members filled)
    {texts : List MemberText}
    (htexts : List.Forall₂ (fun m t => SpellsString m.1 t.key ∧ t.value = m.2) members texts)
    {isFirst : Bool} {cs : List Char} (h : Parts '}' isFirst (texts.map MemberText.text) cs)
    (rest : List Char) :
    Runs (memberStep fields) textSize filled ('}' :: rest) (isFirst, record) (cs ++ rest) := by
  induction hfills generalizing texts isFirst cs with
  | nil =>
      cases htexts
      exact .stop ((h.reads_nextMember_nil rest).bind (.pure _ _))
  | @cons _ _ _ m _ hfirst _ ih =>
      obtain ⟨name, value⟩ := m
      cases htexts with
      | cons ht htexts =>
          obtain ⟨hkey, rfl⟩ := ht
          obtain ⟨ds, hds, hlength, hstep⟩ := reads_memberStep hkey hfirst h
          refine .more (hstep rest) ?_ (ih htexts hds)
          simpa [textSize] using hlength

/-- A record is read from an object whose members fill it. -/
theorem takes_record {fields : List (Field σ)} {start filled : σ}
    {members : List (String × List Char)} {cs : List Char} (h : SpellsObject members cs)
    (hfills : Fills fields start members filled) (wanted : String) :
    Takes (record wanted fields start) cs filled := by
  intro blank rest hblank _
  obtain ⟨texts, text, htexts, htext, rfl⟩ := h
  have hmembers : Reads (Config.members fields start) (text ++ rest) filled ('}' :: rest) := by
    rw [members_eq]
    exact (runs_memberStep hfills htexts htext rest).repeating
  have hend : Reads objectEnd ('}' :: rest) () rest := .token isBlank_nil rfl (.advance _ _)
  exact .token hblank rfl ((Reads.advance _ _).bind (hmembers.enclosed hend))

/-! ### Members in any order -/

/-- The members of an object are the given ones, in some order, and further
ones under other names. -/
def Arranges (known members : List (String × List Char)) : Prop :=
  ∃ further, members.Perm (known ++ further) ∧ ∀ m ∈ further, m.1 ∉ known.map Prod.fst ∧ IsValue m.2

/-- A known name is not that of any other member. -/
theorem Arranges.pairwise {known members : List (String × List Char)} (h : Arranges known members)
    (hnodup : (known.map Prod.fst).Nodup) :
    members.Pairwise fun m n => m.1 ∈ known.map Prod.fst → m.1 ≠ n.1 := by
  obtain ⟨further, hperm, hfurther⟩ := h
  have hsymm : ∀ {m n : String × List Char}, (m.1 ∈ known.map Prod.fst → m.1 ≠ n.1) →
      n.1 ∈ known.map Prod.fst → n.1 ≠ m.1 := fun h hmem heq => h (heq ▸ hmem) heq.symm
  refine (hperm.pairwise_iff hsymm).mpr (List.pairwise_append.mpr ⟨?_, ?_, ?_⟩)
  · refine (List.pairwise_map.mp hnodup).imp ?_
    exact fun hne _ => hne
  · exact List.pairwise_of_forall_mem_list fun m hm _ _ hmem => absurd hmem (hfurther m hm).1
  · exact fun m _ n hn hmem heq => (hfurther n hn).1 (heq ▸ hmem)

/-- A record in the making is told by the names of the members that have been there: it takes each
of the known members and passes those under other names. -/
structure Told (fields : List (Field σ)) (known : List (String × List Char))
    (state : List String → σ) :
    Prop where
  nodup : (known.map Prod.fst).Nodup
  takes : ∀ m ∈ known, ∀ names, m.1 ∉ names →
    TakesMember fields (state names) m (state (m.1 :: names))
  passes : ∀ name ∉ known.map Prod.fst, ∀ names,
    fields.find? (·.name == name) = none ∧ state (name :: names) = state names

/-- **Members in any order** fill a record as their names tell. -/
theorem Told.fills {fields : List (Field σ)} {known members : List (String × List Char)}
    {state : List String → σ} (h : Told fields known state)
    (hmem : ∀ m ∈ members, m ∈ known ∨ m.1 ∉ known.map Prod.fst ∧ IsValue m.2)
    (hpairwise : members.Pairwise fun m n => m.1 ∈ known.map Prod.fst → m.1 ≠ n.1)
    {names : List String} (hnames : ∀ m ∈ members, m ∈ known → m.1 ∉ names) :
    Fills fields (state names) members (state ((members.map Prod.fst).reverse ++ names)) := by
  induction members generalizing names with
  | nil => exact .nil
  | cons m members ih =>
      obtain ⟨hm, hmem⟩ := List.forall_mem_cons.mp hmem
      obtain ⟨hdiffers, hpairwise⟩ := List.pairwise_cons.mp hpairwise
      have hfirst : TakesMember fields (state names) m (state (m.1 :: names)) := by
        rcases hm with hknown | ⟨hother, hvalue⟩
        · exact h.takes m hknown names (hnames m List.mem_cons_self hknown)
        · obtain ⟨hfield, hstate⟩ := h.passes m.1 hother names
          rw [hstate]
          exact .unknown hfield hvalue
      rw [List.map_cons, List.reverse_cons, List.append_assoc]
      refine .cons hfirst (ih hmem hpairwise fun n hn hknown => ?_)
      have hne : n.1 ≠ m.1 := fun heq =>
        hdiffers n hn (heq ▸ List.mem_map_of_mem hknown) heq.symm
      exact List.not_mem_cons_of_ne_of_not_mem hne (hnames n (List.mem_cons_of_mem m hn) hknown)

/-- Members in any order fill a record if each of them tells its own part. -/
theorem Told.exists_fills {fields : List (Field σ)} {known members : List (String × List Char)}
    {state : List String → σ} (h : Told fields known state) (hmembers : Arranges known members) :
    ∃ names, (∀ m ∈ known, m.1 ∈ names) ∧ Fills fields (state []) members (state names) := by
  have hpairwise := hmembers.pairwise h.nodup
  obtain ⟨further, hperm, hfurther⟩ := hmembers
  refine ⟨_, fun m hm => ?_, h.fills (fun m hm => ?_) hpairwise fun _ _ _ => List.not_mem_nil⟩
  · have hmem : m ∈ members := hperm.mem_iff.mpr (List.mem_append_left further hm)
    simpa using ⟨m.2, hmem⟩
  · rcases List.mem_append.mp (hperm.mem_iff.mp hm) with hm | hm
    · exact .inl hm
    · exact .inr (hfurther m hm)

/-! ### The texts of settings -/

/-- The texts of function names: a string or a list of strings. -/
def SpellsNames : MessageFunctions → List Char → Prop
  | .one name => SpellsString name
  | .many names => SpellsList SpellsString names

/-- The texts of a group. -/
def SpellsGroup (g : SourceGroup) (cs : List Char) : Prop :=
  ∃ language sources members, SpellsString g.language.name language ∧
    SpellsList SpellsString g.sources sources ∧
    Arranges [("extractor", language), ("src", sources)] members ∧ SpellsObject members cs

/-- The texts of settings: an object with the function names, the template and the groups. -/
def Spells (c : Config) (cs : List Char) : Prop :=
  ∃ names template groups members,
    SpellsNames c.functionNames names ∧ SpellsString c.template template ∧
    SpellsList SpellsGroup c.groups groups ∧
    Arranges [("functionName", names), ("potFile", template), ("groups", groups)] members ∧
    SpellsObject members cs

/-! ### Reading them -/

/-- A language is read from its name. -/
theorem takes_readLanguage {language : Language} {cs : List Char}
    (h : SpellsString language.name cs) : Takes readLanguage cs language := by
  intro blank rest hblank hrest
  have hname := takes_string h "variant identifier" [] rest isBlank_nil hrest
  have hlanguage : Language.ofName? language.name = some language := by cases language <;> rfl
  have hread : Reads readLanguageName (cs ++ rest) language rest := by
    refine hname.bind ?_
    rw [hlanguage]
    exact .pure _ _
  obtain ⟨body, rfl, -⟩ := reads_stringBody h
  exact .token hblank rfl hread

/-- The texts are those of their values. -/
theorem stringsOf?_map (texts : List String) :
    stringsOf? (texts.map Value.string) = some texts := by
  unfold stringsOf?
  induction texts with
  | nil => rfl
  | cons text texts ih => simp [List.mapM_cons, ih]

/-- Function names are read from a single text or from a list. -/
theorem takes_readFunctionNames {functions : MessageFunctions} {cs : List Char}
    (h : SpellsNames functions cs) : Takes readFunctionNames cs functions := by
  intro blank rest hblank hrest
  cases functions with
  | one name => exact (takes_value_string h 126 blank rest hblank hrest).bind (.pure _ _)
  | many names =>
      refine (takes_value_list h 125 blank rest hblank hrest).bind ?_
      simp only [stringsOf?_map]
      exact .pure _ _

/-- A group of which the members under some names have been read. -/
def groupSoFar (g : SourceGroup) (names : List String) : PartialGroup :=
  { language := if "extractor" ∈ names then some g.language else none
    sources := if "src" ∈ names then some g.sources else none }

/-- The members of a group tell its language and its sources. -/
theorem told_groupSoFar {g : SourceGroup} {language sources : List Char}
    (hlanguage : SpellsString g.language.name language)
    (hsources : SpellsList SpellsString g.sources sources) :
    Told groupFields [("extractor", language), ("src", sources)] (groupSoFar g) where
  nodup := by simp
  takes := by
    intro m hm names hnames
    simp only [List.mem_cons, List.not_mem_nil, or_false] at hm
    rcases hm with rfl | rfl
    · have hnext : groupSoFar g ("extractor" :: names) =
          { groupSoFar g names with language := some g.language } := by simp [groupSoFar]
      rw [hnext]
      exact .known rfl (by simp [groupSoFar, hnames]) ((takes_readLanguage hlanguage).map _)
    · have hnext : groupSoFar g ("src" :: names) =
          { groupSoFar g names with sources := some g.sources } := by simp [groupSoFar]
      have hstrings := takes_list hsources fun _ _ h => ⟨takes_string h "a string", h.startsValue⟩
      rw [hnext]
      exact .known rfl (by simp [groupSoFar, hnames]) (hstrings.map _)
  passes := by
    intro name hname names
    simp only [List.map_cons, List.map_nil, List.mem_cons, List.not_mem_nil, or_false,
      not_or] at hname
    obtain ⟨hextractor, hsrc⟩ := hname
    exact ⟨by simp [groupFields, Ne.symm hextractor, Ne.symm hsrc],
      by simp [groupSoFar, Ne.symm hextractor, Ne.symm hsrc]⟩

/-- **A group** is read from each of its texts. -/
theorem takes_readGroup {g : SourceGroup} {cs : List Char} (h : SpellsGroup g cs) :
    Takes readGroup cs g := by
  obtain ⟨language, sources, members, hlanguage, hsources, hmembers, hcs⟩ := h
  obtain ⟨names, hnames, hfills⟩ := (told_groupSoFar hlanguage hsources).exists_fills hmembers
  simp only [List.forall_mem_cons] at hnames
  have hgroup : ({ language := (groupSoFar g names).language.getD .javascript
                   sources := (groupSoFar g names).sources.getD [] } : SourceGroup) = g := by
    simp [groupSoFar, hnames]
  have hrecord := takes_record hcs hfills "struct GroupConfig"
  rw [← hgroup]
  exact hrecord.map fun g : PartialGroup =>
    ({ language := g.language.getD .javascript, sources := g.sources.getD [] } : SourceGroup)

/-- The text of a group starts like a value. -/
theorem SpellsGroup.startsValue {g : SourceGroup} {cs : List Char} (h : SpellsGroup g cs) :
    StartsValue cs := by
  obtain ⟨_, _, _, -, -, -, hcs⟩ := h
  exact hcs.startsValue

/-- Settings of which the members under some names have been read. -/
def soFar (c : Config) (names : List String) : PartialConfig :=
  { functionNames := if "functionName" ∈ names then some c.functionNames else none
    template := if "potFile" ∈ names then some c.template else none
    groups := if "groups" ∈ names then some c.groups else none }

/-- The members of the settings tell the function names, the template and the groups. -/
theorem told_soFar {c : Config} {functions template groups : List Char}
    (hfunctions : SpellsNames c.functionNames functions)
    (htemplate : SpellsString c.template template)
    (hgroups : SpellsList SpellsGroup c.groups groups) :
    Told configFields [("functionName", functions), ("potFile", template), ("groups", groups)]
      c.soFar where
  nodup := by simp
  takes := by
    intro m hm names hnames
    simp only [List.mem_cons, List.not_mem_nil, or_false] at hm
    rcases hm with rfl | rfl | rfl
    · have hnext : c.soFar ("functionName" :: names) =
          { c.soFar names with functionNames := some c.functionNames } := by simp [soFar]
      rw [hnext]
      exact .known rfl (by simp [soFar, hnames]) ((takes_readFunctionNames hfunctions).map _)
    · have hnext : c.soFar ("potFile" :: names) =
          { c.soFar names with template := some c.template } := by simp [soFar]
      rw [hnext]
      exact .known rfl (by simp [soFar, hnames]) ((takes_string htemplate "a string").map _)
    · have hnext : c.soFar ("groups" :: names) =
          { c.soFar names with groups := some c.groups } := by simp [soFar]
      have hlist := takes_list hgroups fun _ _ h => ⟨takes_readGroup h, h.startsValue⟩
      rw [hnext]
      exact .known rfl (by simp [soFar, hnames]) (hlist.map _)
  passes := by
    intro name hname names
    simp only [List.map_cons, List.map_nil, List.mem_cons, List.not_mem_nil, or_false,
      not_or] at hname
    obtain ⟨hfunction, hpot, hgroups⟩ := hname
    exact ⟨by simp [configFields, Ne.symm hfunction, Ne.symm hpot, Ne.symm hgroups],
      by simp [soFar, Ne.symm hfunction, Ne.symm hpot, Ne.symm hgroups]⟩

/-- The reader of whole texts of settings. -/
def readWhole : Reader Config := do
  let c ← record "struct Config" configFields {}
  ending
  return c.complete

/-- Settings that are read to the end of a text are those of the text. -/
theorem ofText_eq_ok {cs : List Char} {c : Config} (h : Reads readWhole cs c []) :
    ofText (String.ofList cs) = .ok c := by
  obtain ⟨place, hplace⟩ := h ⟨1, 0⟩
  have hfirst : Cursor.first (String.ofList cs) = ⟨⟨1, 0⟩, cs⟩ := by simp [Cursor.first]
  rw [← hfirst] at hplace
  unfold ofText
  dsimp only
  split
  · rename_i heq
    cases heq.symm.trans hplace
    rfl
  · rename_i heq
    cases heq.symm.trans hplace

/-- **Settings** are read from each of their texts. -/
theorem ofText_of_spells {c : Config} {cs : List Char} (h : c.Spells cs) {before after : List Char}
    (hbefore : IsBlank before) (hafter : IsBlank after) :
    ofText (String.ofList (before ++ (cs ++ after))) = .ok c := by
  obtain ⟨functions, template, groups, members, hfunctions, htemplate, hgroups, hmembers, hcs⟩ := h
  obtain ⟨names, hnames, hfills⟩ := (told_soFar hfunctions htemplate hgroups).exists_fills hmembers
  simp only [List.forall_mem_cons] at hnames
  have hcomplete : (c.soFar names).complete = c := by simp [soFar, PartialConfig.complete, hnames]
  have hends : EndsValue after := fun d hd => .inl (hafter d (List.mem_of_mem_head? hd))
  have hrecord := takes_record hcs hfills "struct Config" before after hbefore hends
  have hnothing : Reads peekToken (after ++ []) none [] := .peekToken hafter nofun
  have hending : Reads ending after () [] := by
    rw [List.append_nil] at hnothing
    exact hnothing.bind (.pure _ _)
  refine ofText_eq_ok (hrecord.bind (hending.bind ?_))
  rw [hcomplete]
  exact .pure c []

/-! ### Writing them -/

/-- The value that is written for texts spells them. -/
theorem spellsList_stringsValue (texts : List String) (depth : Nat) :
    SpellsList SpellsString texts (render depth (stringsValue texts)) :=
  spellsList_render spellsString_quote texts

/-- The value that is written for function names spells them. -/
theorem spellsNames_namesValue (functions : MessageFunctions) (depth : Nat) :
    SpellsNames functions (render depth (namesValue functions)) := by
  cases functions with
  | one name => exact spellsString_quote name
  | many names => exact spellsList_stringsValue names depth

/-- Members as they are known are an arrangement. -/
theorem arranges_self (known : List (String × List Char)) : Arranges known known :=
  ⟨[], by rw [List.append_nil], nofun⟩

/-- The value that is written for a group spells it. -/
theorem spellsGroup_groupValue (depth : Nat) (g : SourceGroup) :
    SpellsGroup g (render depth (groupValue g)) :=
  ⟨_, _, _, spellsString_quote g.language.name, spellsList_stringsValue g.sources (depth + 1),
    arranges_self _, spellsObject_onLines _ depth⟩

/-- What is written for settings is one of their texts. -/
theorem spells_toValue (c : Config) : c.Spells (render 0 c.toValue) :=
  ⟨_, _, _, _, spellsNames_namesValue c.functionNames 1, spellsString_quote c.template,
    spellsList_render (spellsGroup_groupValue 2) c.groups, arranges_self _,
    spellsObject_onLines _ 0⟩

/-- Settings are read back from the text that is written for them. -/
theorem ofText_toText (c : Config) : ofText c.toText = .ok c := by
  have h := ofText_of_spells c.spells_toValue isBlank_nil isBlank_nil
  rwa [List.nil_append, List.append_nil] at h

/-- **Settings come back from their texts.** The text that is written for settings is read as these
settings, and so is every other text of them: with the members of its objects in any order, with any
further members under other names, and with white space anywhere. Different settings are written
differently, also if they differ only in whether one name is a list. -/
theorem ofText_spelled (c : Config) :
    ofText c.toText = .ok c ∧
    (∀ before cs after, IsBlank before → c.Spells cs → IsBlank after →
      ofText (String.ofList (before ++ (cs ++ after))) = .ok c) ∧
    ∀ d : Config, d.toText = c.toText → d = c := by
  refine ⟨ofText_toText c, fun before cs after hbefore hcs hafter => ?_, fun d htext => ?_⟩
  · exact ofText_of_spells hcs hbefore hafter
  · have hread := ofText_toText d
    rw [htext, ofText_toText c] at hread
    exact (Except.ok.inj hread).symm

/-- The members of both objects are in another order than they are written in, and each object has a
further member, one of them a number that is out of range. -/
theorem ofText_spelled_rearranged :
    let c : Config :=
      { functionNames := .many ["tr"]
        template := "a.pot"
        groups := [{ language := .typescript, sources := ["src"] }] }
    let object := fun depth (members : List (String × List Char)) =>
      onLines '{' '}' depth (members.map fun m => quote m.1 ++ ':' :: ' ' :: m.2)
    let group := object 2 [("src", onLines '[' ']' 3 [quote "src"]), ("note", "null".toList),
      ("extractor", quote "typescript")]
    let text := object 0 [("groups", onLines '[' ']' 1 [group]), ("limit", "-1E400".toList),
      ("functionName", onLines '[' ']' 1 [quote "tr"]), ("potFile", quote "a.pot")]
    c.Spells text ∧ ofText (String.ofList (['\n'] ++ (text ++ []))) = .ok c := by
  intro c object group text
  have hgroup : SpellsGroup { language := .typescript, sources := ["src"] } group := by
    refine ⟨quote "typescript", onLines '[' ']' 3 [quote "src"], _, spellsString_quote _,
      spellsList_onLines (.cons (spellsString_quote _) .nil) 3, ⟨[("note", "null".toList)], ?_, ?_⟩,
      spellsObject_onLines _ 2⟩
    · decide
    · simpa using IsValue.null
  have hnumber : IsValue "-1E400".toList := by
    have hwhole : IsWhole ['1'] :=
      .digits (by decide) ⟨List.cons_ne_nil _ _, List.all_eq_true.mp rfl⟩
    have hexponent : IsExponent ('E' :: ([] ++ ['4', '0', '0'])) :=
      .digits (.inr rfl) (.inl rfl) ⟨List.cons_ne_nil _ _, List.all_eq_true.mp rfl⟩
    exact .negative (.mk hwhole .absent hexponent)
  have hspells : c.Spells text := by
    refine ⟨onLines '[' ']' 1 [quote "tr"], quote "a.pot", onLines '[' ']' 1 [group], _,
      spellsList_onLines (.cons (spellsString_quote _) .nil) 1, spellsString_quote _,
      spellsList_onLines (.cons hgroup .nil) 1, ⟨[("limit", "-1E400".toList)], ?_, ?_⟩,
      spellsObject_onLines _ 0⟩
    · decide
    · simpa using hnumber
  exact ⟨hspells, (ofText_spelled c).2.1 ['\n'] text [] (isBlank_indent 0) hspells isBlank_nil⟩

end StringHarvest.Config
