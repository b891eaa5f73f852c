import Mathlib.Data.List.Infix
import StringHarvest.Catalog.Template

/-!
# What a template determines

In a template only the quotes of a text are escaped; backslashes and line feeds are written as they
are. So a text may hold what looks like the end of its field or like a further block, and one that
ends in a backslash makes its closing quote look escaped.

**Main theorem** (`render_eq_render_iff`): two catalogs without translations have the same template
exactly if they list the same singulars with the same plurals. Context and comment are lost and
nothing else is. (That the singulars are not empty is not needed.)

The end of a text can be mistaken in one way only (`eq_or_overlap`): one text ends in a backslash
where another one goes on with a quote, and what stands behind the first is the rest of the
second. What stands behind a text in a block starts with a line feed and a keyword, and the next
quote is one that opens a text. It is not escaped, so a text that reaches that far ends there
(`eq_of_closed_plain`), and what comes next is never what may stand behind it
(`behindSingular_ne`, `behindPlural_ne`).
-/

namespace StringHarvest.Template

/-! ### Escaped texts -/

/-- The empty text has no quotes. -/
@[simp] theorem escapeQuotes_nil : escapeQuotes [] = [] := rfl

/-- A quote gets a backslash before it. -/
@[simp] theorem escapeQuotes_quote (cs : List Char) :
    escapeQuotes ('"' :: cs) = '\\' :: '"' :: escapeQuotes cs := rfl

/-- Any other character stays as it is. -/
theorem escapeQuotes_cons_of_ne {c : Char} (h : c ≠ '"') (cs : List Char) :
    escapeQuotes (c :: cs) = c :: escapeQuotes cs := by
  simp [escapeQuotes, h]

/-- A text without quotes is written as it is. -/
theorem escapeQuotes_of_notMem {cs : List Char} (h : '"' ∉ cs) : escapeQuotes cs = cs := by
  induction cs with
  | nil => rfl
  | cons c cs ih =>
      rw [List.mem_cons, not_or] at h
      rw [escapeQuotes_cons_of_ne (Ne.symm h.1), ih h.2]

/-- An escaped text never starts with a quote, so a quote at the front closes an empty one. -/
theorem eq_nil_of_closed {v x y : List Char} (h : '"' :: x = escapeQuotes v ++ '"' :: y) :
    v = [] ∧ x = y := by
  rcases v with _ | ⟨d, v⟩
  · exact ⟨rfl, (List.cons.inj h).2⟩
  · by_cases hd : d = '"'
    · subst hd
      rw [escapeQuotes_quote] at h
      cases h
    · rw [escapeQuotes_cons_of_ne hd] at h
      exact absurd (List.cons.inj h).1.symm hd

/-- The text `u` with `x` behind it is written like the longer text `v` with `y` behind it: `u` ends
in a backslash where `v` has a quote, and the rest of `v` stands behind `u`. -/
def Overlap (u v x y : List Char) : Prop :=
  ∃ a w, u = a ++ ['\\'] ∧ v = a ++ '"' :: w ∧ x = escapeQuotes w ++ '"' :: y

/-- An overlap stays one behind a further character. -/
theorem Overlap.cons {u v x y : List Char} (h : Overlap u v x y) (c : Char) :
    Overlap (c :: u) (c :: v) x y := by
  obtain ⟨a, w, rfl, rfl, hx⟩ := h
  exact ⟨c :: a, w, rfl, rfl, hx⟩

/-- **The end of a text can be mistaken in one way only.** -/
theorem eq_or_overlap {u v x y : List Char}
    (h : escapeQuotes u ++ '"' :: x = escapeQuotes v ++ '"' :: y) :
    (u = v ∧ x = y) ∨ Overlap u v x y ∨ Overlap v u y x := by
  induction u generalizing v with
  | nil =>
      obtain ⟨rfl, hxy⟩ := eq_nil_of_closed h
      exact .inl ⟨rfl, hxy⟩
  | cons c u ih =>
      rcases v with _ | ⟨d, v⟩
      · obtain ⟨hu, -⟩ := eq_nil_of_closed h.symm
        cases hu
      · have step {e : Char} (htail : escapeQuotes u ++ '"' :: x = escapeQuotes v ++ '"' :: y) :
            (e :: u = e :: v ∧ x = y) ∨ Overlap (e :: u) (e :: v) x y ∨
              Overlap (e :: v) (e :: u) y x := by
          rcases ih htail with ⟨rfl, hxy⟩ | ho | ho
          · exact .inl ⟨rfl, hxy⟩
          · exact .inr (.inl (ho.cons e))
          · exact .inr (.inr (ho.cons e))
        -- where only one of the texts has a quote, the other one has a backslash and ends behind it
        by_cases hc : c = '"'
        · subst hc
          by_cases hd : d = '"'
          · subst hd
            simp only [escapeQuotes_quote, List.cons_append, List.cons.injEq, true_and] at h
            exact step h
          · rw [escapeQuotes_quote, escapeQuotes_cons_of_ne hd] at h
            simp only [List.cons_append, List.cons.injEq] at h
            obtain ⟨rfl, h⟩ := h
            obtain ⟨rfl, hy⟩ := eq_nil_of_closed h
            exact .inr (.inr ⟨[], u, rfl, rfl, hy.symm⟩)
        · by_cases hd : d = '"'
          · subst hd
            rw [escapeQuotes_quote, escapeQuotes_cons_of_ne hc] at h
            simp only [List.cons_append, List.cons.injEq] at h
            obtain ⟨rfl, h⟩ := h
            obtain ⟨rfl, hx⟩ := eq_nil_of_closed h.symm
            exact .inr (.inl ⟨[], v, rfl, rfl, hx.symm⟩)
          · rw [escapeQuotes_cons_of_ne hc, escapeQuotes_cons_of_ne hd] at h
            simp only [List.cons_append, List.cons.injEq] at h
            obtain ⟨rfl, h⟩ := h
            exact step h

/-- The end of a text is found if nothing behind it can be taken for the rest of a longer text. -/
theorem closed_inj {u v x y : List Char} (hx : ∀ w, x ≠ escapeQuotes w ++ '"' :: y)
    (hy : ∀ w, y ≠ escapeQuotes w ++ '"' :: x)
    (h : escapeQuotes u ++ '"' :: x = escapeQuotes v ++ '"' :: y) : u = v ∧ x = y := by
  rcases eq_or_overlap h with heq | ⟨-, w, -, -, hw⟩ | ⟨-, w, -, -, hw⟩
  · exact heq
  · exact absurd hw (hx w)
  · exact absurd hw (hy w)

section plain

variable {p w y z : List Char} (hquote : '"' ∉ p) (hlast : p.getLast? ≠ some '\\')
include hquote hlast

/-- A quote that no backslash escapes is the closing one of every text that reaches it. -/
theorem eq_of_closed_plain (h : p ++ '"' :: z = escapeQuotes w ++ '"' :: y) : w = p ∧ y = z := by
  rw [← escapeQuotes_of_notMem hquote] at h
  rcases eq_or_overlap h with ⟨rfl, rfl⟩ | ⟨a, w', rfl, -, -⟩ | ⟨a, w', -, rfl, -⟩
  · exact ⟨rfl, rfl⟩
  · simp at hlast
  · simp at hquote

/-- The quotes of an empty text stand behind each other, so no text ends its line at the first. -/
theorem empty_ne_closed (hy : y.head? = some '\n') :
    p ++ '"' :: '"' :: z ≠ escapeQuotes w ++ '"' :: y := by
  intro h
  obtain ⟨-, rfl⟩ := eq_of_closed_plain hquote hlast h
  simp at hy

end plain

/-! ### Blocks -/

/-- What stands behind the closing quote of a plural: an empty translation, and what follows the
block. -/
def behindPlural (rest : List Char) : List Char :=
  "\nmsgstr[0] ".toList ++ '"' :: '"' :: '\n' :: rest

/-- What stands behind the closing quote of a singular: the plural, if there is one, an empty
translation, and what follows the block. -/
def behindSingular (m : Message) (rest : List Char) : List Char :=
  if m.hasPlural then
    "\nmsgid_plural ".toList ++ '"' :: (escapeQuotes m.plural.toList ++ '"' :: behindPlural rest)
  else "\nmsgstr ".toList ++ '"' :: '"' :: '\n' :: rest

variable {m m' : Message} {r r' : List Char}

/-- A block starts with its singular; what follows it starts with a quote. -/
theorem toList_block_append (h : m.message = "") (rest : List Char) :
    (block m).toList ++ rest =
      "msgid \"".toList ++ (escapeQuotes m.singular.toList ++ '"' :: behindSingular m rest) := by
  unfold block behindSingular behindPlural quote
  split
  · simp [h]
  · simp [h]

/-- Behind the singular stands the plural, if there is one. -/
theorem behindSingular_of_plural (h : m.hasPlural) :
    behindSingular m r = "\nmsgid_plural ".toList ++
      '"' :: (escapeQuotes m.plural.toList ++ '"' :: behindPlural r) :=
  if_pos h

/-- Otherwise an empty text stands there. -/
theorem behindSingular_of_not_plural (h : ¬ m.hasPlural) :
    behindSingular m r = "\nmsgstr ".toList ++ '"' :: '"' :: '\n' :: r :=
  if_neg h

/-- Behind the plural stands a line feed. -/
theorem head?_behindPlural (rest : List Char) : (behindPlural rest).head? = some '\n' := rfl

/-- Behind the singular stands a line feed. -/
theorem head?_behindSingular (m : Message) (rest : List Char) :
    (behindSingular m rest).head? = some '\n' := by
  unfold behindSingular
  split
  · rfl
  · rfl

/-- No text reaches from the end of a plural to the end of another one. -/
theorem behindPlural_ne {w : List Char} :
    behindPlural r ≠ escapeQuotes w ++ '"' :: behindPlural r' :=
  empty_ne_closed (by decide) (by decide) (head?_behindPlural r')

/-- No text reaches from the end of a singular to the end of another one. -/
theorem behindSingular_ne {w : List Char} :
    behindSingular m r ≠ escapeQuotes w ++ '"' :: behindSingular m' r' := by
  intro h
  by_cases hm : m.hasPlural
  · -- the text ends where the plural opens, so the plural starts with what follows a singular
    rw [behindSingular_of_plural hm] at h
    obtain ⟨-, h⟩ := eq_of_closed_plain (by decide) (by decide) h
    by_cases hm' : m'.hasPlural
    · rw [behindSingular_of_plural hm'] at h
      obtain ⟨-, h⟩ := eq_of_closed_plain (by decide) (by decide) h
      exact behindPlural_ne h
    · rw [behindSingular_of_not_plural hm'] at h
      exact empty_ne_closed (by decide) (by decide) (head?_behindPlural r) h
  · rw [behindSingular_of_not_plural hm] at h
    exact empty_ne_closed (by decide) (by decide) (head?_behindSingular m' r') h

/-- A block with a plural and one without differ in the word behind the singular. -/
theorem behindSingular_ne_of_plural (hm : m.hasPlural) (hm' : ¬ m'.hasPlural) :
    behindSingular m r ≠ behindSingular m' r' := by
  rw [behindSingular_of_plural hm, behindSingular_of_not_plural hm']
  intro h
  have hletter : some 'i' = some 's' := congrArg (fun cs : List Char => cs[4]?) h
  exact absurd hletter (by decide)

/-- From what stands behind the singular, the plural and the rest are told. -/
theorem behindSingular_inj (h : behindSingular m r = behindSingular m' r') :
    m.plural = m'.plural ∧ r = r' := by
  by_cases hm : m.hasPlural <;> by_cases hm' : m'.hasPlural
  · rw [behindSingular_of_plural hm, behindSingular_of_plural hm'] at h
    have hclosed := (List.cons.inj (List.append_cancel_left h)).2
    obtain ⟨hplural, hrest⟩ :=
      closed_inj (fun _ => behindPlural_ne) (fun _ => behindPlural_ne) hclosed
    have hr := List.append_cancel_left hrest
    simp only [List.cons.injEq, true_and] at hr
    exact ⟨String.toList_inj.mp hplural, hr⟩
  · exact absurd h (behindSingular_ne_of_plural hm hm')
  · exact absurd h.symm (behindSingular_ne_of_plural hm' hm)
  · rw [behindSingular_of_not_plural hm, behindSingular_of_not_plural hm'] at h
    have hr := List.append_cancel_left h
    simp only [List.cons.injEq, true_and] at hr
    simp only [Message.hasPlural, bne_iff_ne, ne_eq, Decidable.not_not] at hm hm'
    exact ⟨hm.trans hm'.symm, hr⟩

/-- What the template of a catalog without translations shows of a message. -/
def shown (m : Message) : String × String := (m.singular, m.plural)

/-- **A block is found again in front of any text**, as far as it shows its message. -/
theorem block_append_inj (hm : m.message = "") (hm' : m'.message = "")
    (h : (block m).toList ++ r = (block m').toList ++ r') : shown m = shown m' ∧ r = r' := by
  rw [toList_block_append hm, toList_block_append hm'] at h
  obtain ⟨hsingular, hrest⟩ :=
    closed_inj (fun _ => behindSingular_ne) (fun _ => behindSingular_ne) (List.append_cancel_left h)
  obtain ⟨hplural, hr⟩ := behindSingular_inj hrest
  exact ⟨Prod.ext (String.toList_inj.mp hsingular) hplural, hr⟩

/-- Messages that show the same texts have the same block. -/
theorem block_eq_of_shown (hm : m.message = "") (hm' : m'.message = "") (h : shown m = shown m') :
    block m = block m' := by
  obtain ⟨hsingular, hplural⟩ := Prod.mk.inj h
  unfold block Message.hasPlural
  rw [hm, hm', hsingular, hplural]

/-! ### Templates -/

/-- The blocks of messages with empty lines between them. -/
def body (messages : List Message) : List Char :=
  ['\n'].intercalate (messages.map fun m => (block m).toList)

/-- A template is its header and its body. -/
theorem toList_render (catalog : Catalog) (generatedAt : String) :
    (render catalog generatedAt).toList = (header generatedAt).toList ++ body catalog.messages := by
  unfold render body
  rw [String.toList_append, String.toList_intercalate, List.map_map]
  rfl

/-- What follows the block of a message: nothing behind the last one, else an empty line and the
blocks of the others. -/
def behindBlock : List Message → List Char
  | [] => []
  | m :: rest => '\n' :: body (m :: rest)

/-- The body starts with the block of the first message. -/
theorem body_cons (m : Message) (rest : List Message) :
    body (m :: rest) = (block m).toList ++ behindBlock rest := by
  cases rest with
  | nil => simp [body, behindBlock]
  | cons m' rest => simp [body, behindBlock, List.intercalate_cons_cons]

/-- The body of a message is not empty. -/
theorem body_cons_ne_nil (m : Message) (rest : List Message) : body (m :: rest) ≠ [] := by
  rw [body_cons]
  simp [block]

/-- What stands behind a block tells the body of the messages behind it. -/
theorem body_eq_of_behindBlock {l l' : List Message} (h : behindBlock l = behindBlock l') :
    body l = body l' := by
  cases l with
  | nil =>
      cases l' with
      | nil => rfl
      | cons m' l' => cases h
  | cons m l =>
      cases l' with
      | nil => cases h
      | cons m' l' => exact (List.cons.inj h).2

/-- Equal blocks one after the other show the same messages: the first ones do, and what follows
them is equal again. -/
theorem map_shown_of_body {l l' : List Message} (hl : ∀ m ∈ l, m.message = "")
    (hl' : ∀ m ∈ l', m.message = "") (h : body l = body l') : l.map shown = l'.map shown := by
  induction l generalizing l' with
  | nil =>
      rcases l' with _ | ⟨m', l'⟩
      · rfl
      · exact absurd h.symm (body_cons_ne_nil m' l')
  | cons m l ih =>
      rcases l' with _ | ⟨m', l'⟩
      · exact absurd h (body_cons_ne_nil m l)
      · rw [body_cons, body_cons] at h
        obtain ⟨hfirst, hrest⟩ :=
          block_append_inj (hl m List.mem_cons_self) (hl' m' List.mem_cons_self) h
        have htail := ih (fun x hx => hl x (List.mem_cons_of_mem m hx))
          (fun x hx => hl' x (List.mem_cons_of_mem m' hx)) (body_eq_of_behindBlock hrest)
        rw [List.map_cons, List.map_cons, hfirst, htail]

/-- Lists of messages that show the same texts have the same blocks. -/
theorem map_block_of_shown {l l' : List Message} (hl : ∀ m ∈ l, m.message = "")
    (hl' : ∀ m ∈ l', m.message = "") (h : l.map shown = l'.map shown) :
    l.map block = l'.map block := by
  induction l generalizing l' with
  | nil =>
      rw [List.map_nil, eq_comm, List.map_eq_nil_iff] at h
      rw [h]
  | cons m l ih =>
      rcases l' with _ | ⟨m', l'⟩
      · cases h
      · obtain ⟨hfirst, hrest⟩ := List.cons.inj h
        have htail := ih (fun x hx => hl x (List.mem_cons_of_mem m hx))
          (fun x hx => hl' x (List.mem_cons_of_mem m' hx)) hrest
        rw [List.map_cons, List.map_cons, htail,
          block_eq_of_shown (hl m List.mem_cons_self) (hl' m' List.mem_cons_self) hfirst]

/-- **What a template determines.** Two catalogs without translations have the same template exactly
if they list the same singulars with the same plurals, in the same order. -/
theorem render_eq_render_iff {c c' : Catalog} (generatedAt : String)
    (h : ∀ m ∈ c.messages, m.message = "") (h' : ∀ m ∈ c'.messages, m.message = "") :
    render c generatedAt = render c' generatedAt ↔
      c.messages.map (fun m => (m.singular, m.plural)) =
        c'.messages.map fun m => (m.singular, m.plural) := by
  constructor
  · intro heq
    have hchars := congrArg String.toList heq
    rw [toList_render, toList_render] at hchars
    exact map_shown_of_body h h' (List.append_cancel_left hchars)
  · intro heq
    unfold render
    rw [map_block_of_shown h h' heq]

/-- A singular that ends in a backslash, and one that goes on with what would stand behind it. -/
theorem render_eq_render_iff_overlap :
    let c : Catalog := ⟨[{ singular := "a\\", plural := "\nmsgid_plural " }]⟩
    let c' : Catalog := ⟨[{ singular := "a\"\nmsgid_plural ", plural := "\nmsgstr[0] " }]⟩
    (∀ m ∈ c.messages, m.message = "") ∧ (∀ m ∈ c'.messages, m.message = "") ∧
      render c "now" ≠ render c' "now" := by
  refine ⟨by decide, by decide, ?_⟩
  exact (render_eq_render_iff "now" (by decide) (by decide)).not.mpr (by decide)

end StringHarvest.Template
