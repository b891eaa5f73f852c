import Mathlib.Data.List.TakeWhile
import StringHarvest.Glob.Expand
import StringHarvest.Proofs.Path.Joins
import StringHarvest.Proofs.Results
import StringHarvest.Proofs.Text.Pieces

/-!
# Patterns and their segments

A pattern is read twice: as a whole, when it is checked, and segment by segment, when it is
expanded. The two readings differ in one point: a bracket may be opened in one segment and closed in
another one.

* `pieces_eq_ok_iff`: what the reader does, as a relation (`Reads`) without positions and bounds.
* `exists_pieces_of_segments`: if all segments are patterns, so is the whole.
* `forall_compiles_iff`: the segments of a pattern are patterns exactly if none of its brackets
  names a slash (`Piece.namesSlash`).
* `exists_expand_iff`: a pattern is expanded exactly if all of its segments are patterns.
-/

namespace StringHarvest.Glob

/-! ### Reading as a relation -/

/-- What stands before a `**`: nothing, or a slash. -/
def AtStart (before : Option Char) : Prop := before = none ∨ before = some '/'

/-- Characters that stand for more than themselves. -/
def special : List Char := ['*', '?', '[']

/-- The pieces of a text that stands behind the character `before`. -/
inductive Reads : (before : Option Char) → List Char → List Piece → Prop
  | nil (before : Option Char) : Reads before [] []
  | star {before : Option Char} {rest : List Char} {pieces : List Piece}
      (single : rest.head? ≠ some '*') (tail : Reads (some '*') rest pieces) :
      Reads before ('*' :: rest) (.anySequence :: pieces)
  | starsEnd {before : Option Char} (start : AtStart before) :
      Reads before ['*', '*'] [.anyDirectories]
  | stars {before : Option Char} {rest : List Char} {pieces : List Piece}
      (start : AtStart before) (tail : Reads (some '/') rest pieces) :
      Reads before ('*' :: '*' :: '/' :: rest) (.anyDirectories :: pieces)
  | any {before : Option Char} {rest : List Char} {pieces : List Piece}
      (tail : Reads (some '?') rest pieces) : Reads before ('?' :: rest) (.anyChar :: pieces)
  | bracket {before : Option Char} {rest after : List Char} {piece : Piece} {pieces : List Piece}
      (head : bracketPiece? rest = some (piece, after)) (tail : Reads (some ']') after pieces) :
      Reads before ('[' :: rest) (piece :: pieces)
  | char {before : Option Char} {c : Char} {rest : List Char} {pieces : List Piece}
      (plain : c ∉ special) (tail : Reads (some c) rest pieces) :
      Reads before (c :: rest) (.char c :: pieces)

/-- A reading in sight of its first character does not depend on how it is at the start. -/
theorem Reads.of_atStart {before before' : Option Char} {cs : List Char} {pieces : List Piece}
    (h : Reads before cs pieces) (hstart : AtStart before') : Reads before' cs pieces := by
  cases h with
  | nil => exact .nil _
  | star single tail => exact .star single tail
  | starsEnd => exact .starsEnd hstart
  | stars _ tail => exact .stars hstart tail
  | any tail => exact .any tail
  | bracket head tail => exact .bracket head tail
  | char plain tail => exact .char plain tail

/-! ### Brackets -/

/-- A set reaches up to its first closing bracket. -/
theorem untilBracket_append {named : List Char} (h : ']' ∉ named) (after : List Char) :
    untilBracket (named ++ ']' :: after) = some (named, after) := by
  have hall : ∀ c ∈ named, (c != ']') = true := by
    intro c hc
    exact bne_iff_ne.mpr fun heq => h (heq ▸ hc)
  unfold untilBracket
  rw [List.dropWhile_append_of_pos hall, List.takeWhile_append_of_pos hall]
  simp

/-- What stands before that bracket has none. -/
theorem eq_of_untilBracket {cs named after : List Char}
    (h : untilBracket cs = some (named, after)) : ']' ∉ named ∧ cs = named ++ ']' :: after := by
  unfold untilBracket at h
  split at h
  · cases h
  · rename_i c rest hdrop
    cases h
    have hc : c = ']' := by
      have hnot := List.head?_dropWhile_not (· != ']') cs
      rw [hdrop] at hnot
      simpa using hnot
    refine ⟨fun hmem => by simpa using List.mem_takeWhile_imp hmem, ?_⟩
    calc
      cs = cs.takeWhile (· != ']') ++ cs.dropWhile (· != ']') :=
        List.takeWhile_append_dropWhile.symm
      _ = _ := by rw [hdrop, hc]

/-- Whether a piece is a bracket with a slash written in it. -/
def CharSet.namesSlash : CharSet → Bool
  | .one c => c == '/'
  | .range first last => first == '/' || last == '/'

/-- Whether a piece names a slash in one of its sets. -/
@[inherit_doc CharSet.namesSlash]
def Piece.namesSlash : Piece → Bool
  | .oneOf sets | .noneOf sets => sets.any CharSet.namesSlash
  | _ => false

/-- Sets name a slash if one stands between their brackets. -/
theorem any_namesSlash_charSets (cs : List Char) :
    (charSets cs).any CharSet.namesSlash = cs.contains '/' := by
  fun_induction charSets cs with
  | case1 first last rest ih =>
      rw [List.any_cons, ih, CharSet.namesSlash, Bool.eq_iff_iff]
      simp [@eq_comm _ '/', or_assoc]
  | case2 c rest _ ih =>
      rw [List.any_cons, ih, CharSet.namesSlash, Bool.eq_iff_iff]
      simp [@eq_comm _ '/']
  | case3 => rfl

/-- **A bracket** ends at the first closing bracket behind its first character. What it gives does
not depend on what follows, and it names a slash exactly if one is written in it. -/
theorem bracketPiece?_eq_some {rest after : List Char} {piece : Piece}
    (h : bracketPiece? rest = some (piece, after)) :
    ∃ named, rest = named ++ ']' :: after ∧ piece.namesSlash = named.contains '/' ∧
      ∀ after', bracketPiece? (named ++ ']' :: after') = some (piece, after') := by
  unfold bracketPiece? at h
  split at h
  · rename_i c rest
    obtain ⟨⟨named, behind⟩, huntil, heq⟩ := Option.map_eq_some_iff.mp h
    cases heq
    obtain ⟨hnamed, rfl⟩ := eq_of_untilBracket huntil
    refine ⟨'!' :: c :: named, rfl, ?_, fun after' => ?_⟩
    · simp [Piece.namesSlash, any_namesSlash_charSets]
    · simp [bracketPiece?, untilBracket_append hnamed]
  · cases h
  · rename_i c rest hbang hlone
    obtain ⟨⟨named, behind⟩, huntil, heq⟩ := Option.map_eq_some_iff.mp h
    cases heq
    obtain ⟨hnamed, rfl⟩ := eq_of_untilBracket huntil
    have hc : c ≠ '!' := fun hc => by
      cases named with
      | nil => exact hbang _ _ hc rfl
      | cons d named => exact hbang _ _ hc rfl
    refine ⟨c :: named, rfl, ?_, fun after' => ?_⟩
    · simp [Piece.namesSlash, any_namesSlash_charSets]
    · simp [bracketPiece?, untilBracket_append hnamed, hc]
  · cases h

/-! ### The reader -/

/-- How many stars there are, one included that is passed already. -/
theorem star_cases (rest : List Char) :
    (rest.head? ≠ some '*' ∧ rest.takeWhile (· == '*') = [] ∧ rest.dropWhile (· == '*') = rest) ∨
    (∃ after, rest = '*' :: after ∧ after.head? ≠ some '*' ∧ rest.takeWhile (· == '*') = ['*'] ∧
      rest.dropWhile (· == '*') = after) ∨
    ∃ after, rest = '*' :: '*' :: after ∧ 2 ≤ (rest.takeWhile (· == '*')).length := by
  match rest with
  | [] => exact .inl (by simp)
  | c :: rest =>
      by_cases hc : c = '*'
      · subst hc
        match rest with
        | [] => exact .inr (.inl ⟨[], by simp⟩)
        | d :: rest =>
            by_cases hd : d = '*'
            · exact .inr (.inr ⟨rest, by simp [hd]⟩)
            · exact .inr (.inl ⟨d :: rest, by simp [hd]⟩)
      · exact .inl (by simp [hc])

/-- A place that is not behind another character is a start. -/
theorem atStart_of {before : Option Char}
    (h : ¬ (before.isSome && before != some '/') = true) : AtStart before := by
  cases before with
  | none => exact .inl rfl
  | some c => exact .inr (by simpa using h)

/-- What is compiled is read by the rules. -/
theorem reads_of_piecesFrom {bound position : Nat} {before : Option Char} {cs : List Char}
    {pieces : List Piece} (hbound : cs.length ≤ bound)
    (h : piecesFrom bound position before cs = .ok pieces) : Reads before cs pieces := by
  fun_induction piecesFrom bound position before cs generalizing pieces with
  | case1 position before cs =>
      obtain rfl := List.eq_nil_of_length_eq_zero (Nat.le_zero.mp hbound)
      cases h
      exact .nil _
  | case2 =>
      cases h
      exact .nil _
  | case3 bound position before rest stars after hone =>
      rename_i ih
      obtain ⟨tail, htail, hpieces⟩ := bind_eq_ok_iff.mp h
      cases hpieces
      rcases star_cases rest with ⟨hhead, -, hdrop⟩ | ⟨_, _, _, htake, _⟩ | ⟨_, _, htake⟩
      · have hafter : after = rest := hdrop
        rw [hafter] at ih htail
        exact .star hhead (ih (by simpa using hbound) htail)
      · simp [stars, htake] at hone
      · simp only [stars, beq_iff_eq] at hone
        omega
  | case4 => cases h
  | case5 => cases h
  | case6 bound position before rest stars after hone htwo hstart =>
      rename_i hafter
      cases h
      rcases star_cases rest with ⟨_, htake, _⟩ | ⟨behind, hrest, _, _, hdrop⟩ | ⟨_, _, htake⟩
      · simp [stars, htake] at hone
      · have hbehind : behind = [] := hdrop.symm.trans hafter
        rw [hrest, hbehind]
        exact .starsEnd (atStart_of hstart)
      · omega
  | case7 bound position before rest stars after hone htwo hstart behind =>
      rename_i hafter ih
      obtain ⟨tail, htail, hpieces⟩ := bind_eq_ok_iff.mp h
      cases hpieces
      rcases star_cases rest with ⟨_, htake, _⟩ | ⟨later, hrest, _, _, hdrop⟩ | ⟨_, _, htake⟩
      · simp [stars, htake] at hone
      · have hlater : later = '/' :: behind := hdrop.symm.trans hafter
        rw [hrest, hlater] at hbound ⊢
        simp only [List.length_cons] at hbound
        exact .stars (atStart_of hstart) (ih (by omega) htail)
      · omega
  | case8 => cases h
  | case9 before bound position rest ih =>
      obtain ⟨tail, htail, hpieces⟩ := bind_eq_ok_iff.mp h
      cases hpieces
      exact .any (ih (by simpa using hbound) htail)
  | case10 => cases h
  | case11 before bound position rest piece after hbracket ih =>
      obtain ⟨tail, htail, hpieces⟩ := bind_eq_ok_iff.mp h
      cases hpieces
      obtain ⟨named, hnamed, -⟩ := bracketPiece?_eq_some hbracket
      refine .bracket hbracket (ih ?_ htail)
      rw [hnamed, List.length_cons, List.length_append, List.length_cons] at hbound
      omega
  | case12 before bound position c rest hstar hany hopen ih =>
      obtain ⟨tail, htail, hpieces⟩ := bind_eq_ok_iff.mp h
      cases hpieces
      exact .char (by simpa [special] using ⟨hstar, hany, hopen⟩) (ih (by simpa using hbound) htail)

/-- Two stars at a start are not misplaced. -/
theorem AtStart.not_misplaced {before : Option Char} (h : AtStart before) :
    (before.isSome && before != some '/') = false := by
  rcases h with rfl | rfl <;> rfl

/-- A character takes one of the steps. -/
theorem exists_steps {c : Char} {cs : List Char} {bound : Nat} (h : (c :: cs).length ≤ bound) :
    ∃ steps, bound = steps + 1 ∧ cs.length ≤ steps := by
  rw [List.length_cons] at h
  exact ⟨bound - 1, by omega, by omega⟩

/-- What is read by the rules is compiled. -/
theorem piecesFrom_of_reads {before : Option Char} {cs : List Char} {pieces : List Piece}
    (h : Reads before cs pieces) (bound position : Nat) (hbound : cs.length ≤ bound) :
    piecesFrom bound position before cs = .ok pieces := by
  induction h generalizing bound position with
  | nil before => cases bound <;> rfl
  | @star before rest pieces single tail ih =>
      obtain ⟨bound, rfl, hrest⟩ := exists_steps hbound
      have htail := ih bound (position + 1) hrest
      obtain ⟨-, htake, hdrop⟩ := (star_cases rest).resolve_right (by
        rintro (⟨after, rfl, -⟩ | ⟨after, rfl, -⟩) <;> simp at single)
      simp only [piecesFrom, htake, hdrop, List.length_nil, Nat.add_zero, beq_self_eq_true, if_true]
      exact bind_eq_ok_iff.mpr ⟨_, htail, rfl⟩
  | starsEnd start =>
      obtain ⟨bound, rfl, -⟩ := exists_steps hbound
      simp [piecesFrom, start.not_misplaced, pure, Except.pure]
  | @stars before rest pieces start tail ih =>
      obtain ⟨bound, rfl, hrest⟩ := exists_steps hbound
      have htail := ih bound (position + 3) (by simp only [List.length_cons] at hrest; omega)
      simp [piecesFrom, start.not_misplaced, htail, bind, Except.bind, pure, Except.pure]
  | @any before rest pieces tail ih =>
      obtain ⟨bound, rfl, hrest⟩ := exists_steps hbound
      have htail := ih bound (position + 1) hrest
      exact bind_eq_ok_iff.mpr ⟨_, htail, rfl⟩
  | @bracket before rest after piece pieces head tail ih =>
      obtain ⟨bound, rfl, hrest⟩ := exists_steps hbound
      obtain ⟨named, hnamed, -⟩ := bracketPiece?_eq_some head
      have hafter : after.length ≤ bound := by
        rw [hnamed, List.length_append, List.length_cons] at hrest
        omega
      have htail := ih bound (position + 1 + (rest.length - after.length)) hafter
      simp only [piecesFrom, head]
      exact bind_eq_ok_iff.mpr ⟨_, htail, rfl⟩
  | @char before c rest pieces plain tail ih =>
      obtain ⟨bound, rfl, hrest⟩ := exists_steps hbound
      have htail := ih bound (position + 1) hrest
      obtain ⟨hstar, hany, hopen⟩ : c ≠ '*' ∧ c ≠ '?' ∧ c ≠ '[' := by simpa [special] using plain
      rw [piecesFrom]
      · exact bind_eq_ok_iff.mpr ⟨_, htail, rfl⟩
      · exact hstar
      · exact hany
      · exact hopen

/-- **The pieces of a text**, without positions and bounds. -/
theorem pieces_eq_ok_iff {text : String} {found : List Piece} :
    pieces text = .ok found ↔ Reads none text.toList found := by
  have hbound : text.toList.length ≤ text.length + 1 :=
    String.length_toList.le.trans (Nat.le_succ _)
  exact ⟨reads_of_piecesFrom hbound, fun h => piecesFrom_of_reads h _ _ hbound⟩

/-! ### The whole and its segments -/

/-- A slash is named only where a bracket and a slash are written. -/
theorem Reads.mem_of_namesSlash {before : Option Char} {cs : List Char} {found : List Piece}
    (h : Reads before cs found) :
    ∀ piece ∈ found, piece.namesSlash = true → '[' ∈ cs ∧ '/' ∈ cs := by
  induction h with
  | nil => simp
  | star _ _ ih | any _ ih | char _ _ ih =>
      refine List.forall_mem_cons.mpr ⟨nofun, fun piece hpiece hnames => ?_⟩
      obtain ⟨hopen, hslash⟩ := ih piece hpiece hnames
      exact ⟨List.mem_cons_of_mem _ hopen, List.mem_cons_of_mem _ hslash⟩
  | starsEnd => exact List.forall_mem_singleton.mpr nofun
  | stars _ _ ih =>
      refine List.forall_mem_cons.mpr ⟨nofun, fun piece hpiece hnames => ?_⟩
      obtain ⟨hopen, hslash⟩ := ih piece hpiece hnames
      simp [hopen]
  | bracket head _ ih =>
      obtain ⟨named, rfl, hnamed, -⟩ := bracketPiece?_eq_some head
      refine List.forall_mem_cons.mpr ⟨fun hnames => ?_, fun piece hpiece hnames => ?_⟩
      · rw [hnamed] at hnames
        have hslash : '/' ∈ named := by simpa using hnames
        simp [hslash]
      · obtain ⟨-, hslash⟩ := ih piece hpiece hnames
        simp [hslash]

/-- Without brackets or without slashes nothing names a slash. -/
theorem Reads.namesSlash_eq_false {before : Option Char} {cs : List Char} {found : List Piece}
    (h : Reads before cs found) (hplain : '[' ∉ cs ∨ '/' ∉ cs) :
    ∀ piece ∈ found, piece.namesSlash = false := by
  intro piece hpiece
  rw [Bool.eq_false_iff]
  intro hnames
  obtain ⟨hopen, hslash⟩ := h.mem_of_namesSlash piece hpiece hnames
  exact hplain.elim (· hopen) (· hslash)

/-- A pattern for one segment in front of a pattern for the rest is a pattern. -/
theorem Reads.append_slash {before : Option Char} {cs rest : List Char} {found more : List Piece}
    (h : Reads before cs found) (hslash : '/' ∉ cs) (hrest : Reads none rest more)
    (hmore : ∀ piece ∈ more, piece.namesSlash = false) :
    ∃ whole, Reads before (cs ++ '/' :: rest) whole ∧
      ∀ piece ∈ whole, piece.namesSlash = false := by
  induction h with
  | nil =>
      have htail := hrest.of_atStart (.inr rfl : AtStart (some '/'))
      exact ⟨_, .char (by decide) htail, List.forall_mem_cons.mpr ⟨rfl, hmore⟩⟩
  | @star _ cs _ single _ ih =>
      obtain ⟨whole, hwhole, hnames⟩ := ih fun hmem => hslash (List.mem_cons_of_mem _ hmem)
      have hsingle : (cs ++ '/' :: rest).head? ≠ some '*' := by
        cases cs with
        | nil => simp
        | cons c cs => simpa using single
      exact ⟨_, .star hsingle hwhole, List.forall_mem_cons.mpr ⟨rfl, hnames⟩⟩
  | starsEnd start =>
      have htail := hrest.of_atStart (.inr rfl : AtStart (some '/'))
      exact ⟨_, .stars start htail, List.forall_mem_cons.mpr ⟨rfl, hmore⟩⟩
  | stars => simp at hslash
  | any _ ih =>
      obtain ⟨whole, hwhole, hnames⟩ := ih fun hmem => hslash (List.mem_cons_of_mem _ hmem)
      exact ⟨_, .any hwhole, List.forall_mem_cons.mpr ⟨rfl, hnames⟩⟩
  | @bracket _ _ after piece _ head _ ih =>
      obtain ⟨named, rfl, hpiece, hbracket⟩ := bracketPiece?_eq_some head
      simp only [List.mem_cons, List.mem_append, not_or] at hslash
      obtain ⟨whole, hwhole, hnames⟩ := ih hslash.2.2.2
      refine ⟨piece :: whole, ?_, List.forall_mem_cons.mpr ⟨?_, hnames⟩⟩
      · have hhead := hbracket (after ++ '/' :: rest)
        rw [← List.cons_append, ← List.append_assoc] at hhead
        exact .bracket hhead hwhole
      · rw [hpiece]
        simpa using hslash.2.1
  | char plain _ ih =>
      obtain ⟨whole, hwhole, hnames⟩ := ih fun hmem => hslash (List.mem_cons_of_mem _ hmem)
      exact ⟨_, .char plain hwhole, List.forall_mem_cons.mpr ⟨rfl, hnames⟩⟩

/-- Patterns for segments, put together, are a pattern whose brackets name no slash. -/
theorem reads_intercalate {segments : List (List Char)} (hne : segments ≠ [])
    (h : ∀ cs ∈ segments, '/' ∉ cs ∧ ∃ found, Reads none cs found) :
    ∃ whole, Reads none (['/'].intercalate segments) whole ∧
      ∀ piece ∈ whole, piece.namesSlash = false := by
  induction segments with
  | nil => exact absurd rfl hne
  | cons cs segments ih =>
      obtain ⟨hslash, found, hfound⟩ := h cs List.mem_cons_self
      cases segments with
      | nil =>
          rw [List.intercalate_singleton]
          exact ⟨found, hfound, hfound.namesSlash_eq_false (.inr hslash)⟩
      | cons next segments =>
          obtain ⟨more, hmore, hnames⟩ :=
            ih (List.cons_ne_nil _ _) fun cs hcs => h cs (List.mem_cons_of_mem _ hcs)
          rw [List.intercalate_cons_cons, List.append_assoc, List.singleton_append]
          exact hfound.append_slash hslash hmore hnames

/-- If no bracket names a slash, every segment of a pattern is read on its own. -/
theorem Reads.segments {before : Option Char} {cs : List Char} {found : List Piece}
    (h : Reads before cs found) (hnames : ∀ piece ∈ found, piece.namesSlash = false) :
    (∃ first, Reads before (cs.takeWhile (· != '/')) first) ∧
      ∀ segment ∈ (Text.splitAt '/' cs).tail, ∃ found, Reads none segment found := by
  induction h with
  | nil => exact ⟨⟨[], .nil _⟩, by simp [Text.splitAt]⟩
  | @star _ rest _ single _ ih =>
      obtain ⟨⟨first, hfirst⟩, hrest⟩ := ih (List.forall_mem_cons.mp hnames).2
      rw [List.takeWhile_cons_of_pos (by decide), Text.splitAt_cons_of_ne (by decide),
        List.tail_modifyHead]
      have hsingle : (rest.takeWhile (· != '/')).head? ≠ some '*' := by
        cases rest with
        | nil => simp
        | cons c rest =>
            by_cases hc : c = '/'
            · simp [hc]
            · simpa [hc] using single
      exact ⟨⟨_, .star hsingle hfirst⟩, hrest⟩
  | starsEnd start => exact ⟨⟨_, .starsEnd start⟩, by simp [Text.splitAt]⟩
  | @stars _ rest _ start _ ih =>
      obtain ⟨⟨first, hfirst⟩, hrest⟩ := ih (List.forall_mem_cons.mp hnames).2
      have htail : (Text.splitAt '/' ('*' :: '*' :: '/' :: rest)).tail = Text.splitAt '/' rest := by
        rw [Text.splitAt_cons_of_ne (by decide), Text.splitAt_cons_of_ne (by decide),
          Text.splitAt_cons_self, List.tail_modifyHead, List.tail_modifyHead, List.tail_cons]
      rw [htail, Text.splitAt_eq_cons]
      refine ⟨⟨_, .starsEnd start⟩, List.forall_mem_cons.mpr ⟨⟨first, ?_⟩, hrest⟩⟩
      exact hfirst.of_atStart (.inl rfl)
  | any _ ih =>
      obtain ⟨⟨first, hfirst⟩, hrest⟩ := ih (List.forall_mem_cons.mp hnames).2
      rw [List.takeWhile_cons_of_pos (by decide), Text.splitAt_cons_of_ne (by decide),
        List.tail_modifyHead]
      exact ⟨⟨_, .any hfirst⟩, hrest⟩
  | @bracket _ _ after piece _ head _ ih =>
      obtain ⟨⟨first, hfirst⟩, hrest⟩ := ih (List.forall_mem_cons.mp hnames).2
      obtain ⟨named, rfl, hpiece, hbracket⟩ := bracketPiece?_eq_some head
      have hnamed : '/' ∉ '[' :: (named ++ [']']) := by
        have hslash := hnames piece List.mem_cons_self
        rw [hpiece] at hslash
        simpa using hslash
      have hcut : '[' :: (named ++ ']' :: after) = '[' :: (named ++ [']']) ++ after := by simp
      rw [hcut, Text.splitAt_append_of_notMem hnamed, List.tail_modifyHead,
        List.takeWhile_append_of_pos (by
          intro c hc
          exact bne_iff_ne.mpr fun heq => hnamed (heq ▸ hc))]
      refine ⟨⟨piece :: first, ?_⟩, hrest⟩
      simpa using Reads.bracket (hbracket _) hfirst
  | @char _ c rest _ plain _ ih =>
      obtain ⟨⟨first, hfirst⟩, hrest⟩ := ih (List.forall_mem_cons.mp hnames).2
      by_cases hc : c = '/'
      · subst hc
        rw [List.takeWhile_cons_of_neg (by decide), Text.splitAt_cons_self, List.tail_cons,
          Text.splitAt_eq_cons]
        exact ⟨⟨[], .nil _⟩,
          List.forall_mem_cons.mpr ⟨⟨first, hfirst.of_atStart (.inl rfl)⟩, hrest⟩⟩
      · rw [List.takeWhile_cons_of_pos (by simpa using hc), Text.splitAt_cons_of_ne hc,
          List.tail_modifyHead]
        exact ⟨⟨_, .char plain hfirst⟩, hrest⟩

/-! ### Which segments are patterns -/

/-- Whether a text is a pattern. -/
def Compiles (text : String) : Prop := ∃ found, pieces text = .ok found

instance (text : String) : Decidable (Compiles text) :=
  match h : pieces text with
  | .ok found => .isTrue ⟨found, h⟩
  | .error _ => .isFalse fun ⟨_, hfound⟩ => nomatch h.symm.trans hfound

/-- A text compiles if the rules read it. -/
theorem compiles_iff {text : String} : Compiles text ↔ ∃ found, Reads none text.toList found := by
  unfold Compiles
  simp only [pieces_eq_ok_iff]

/-- The empty text compiles. -/
theorem compiles_empty : Compiles "" := ⟨[], rfl⟩

/-- **Patterns for all segments** are a pattern, whose brackets name no slash. -/
theorem exists_pieces_of_segments {p : Path} (h : ∀ segment ∈ p.segments, Compiles segment) :
    ∃ found, pieces p.text = .ok found ∧ ∀ piece ∈ found, piece.namesSlash = false := by
  have hsegments : ∀ cs ∈ p.segments.map String.toList,
      '/' ∉ cs ∧ ∃ found, Reads none cs found := by
    intro cs hcs
    obtain ⟨segment, hsegment, rfl⟩ := List.mem_map.mp hcs
    exact ⟨Path.slash_notMem_of_mem_segments hsegment, compiles_iff.mp (h segment hsegment)⟩
  obtain ⟨whole, hwhole, hnames⟩ :=
    reads_intercalate (fun hnil => p.segments_ne_nil (List.map_eq_nil_iff.mp hnil)) hsegments
  refine ⟨whole, pieces_eq_ok_iff.mpr ?_, hnames⟩
  rw [p.text_eq_intercalate, String.toList_intercalate]
  exact hwhole

/-- **The segments of a pattern** are patterns exactly if none of its brackets names a slash. -/
theorem forall_compiles_iff {p : Path} {found : List Piece} (h : pieces p.text = .ok found) :
    (∀ segment ∈ p.segments, Compiles segment) ↔ ∀ piece ∈ found, piece.namesSlash = false := by
  constructor
  · intro hsegments
    obtain ⟨found', hfound', hnames⟩ := exists_pieces_of_segments hsegments
    rw [h] at hfound'
    rwa [Except.ok.inj hfound']
  · intro hnames
    obtain ⟨⟨first, hfirst⟩, hrest⟩ := (pieces_eq_ok_iff.mp h).segments hnames
    unfold Path.segments
    rw [Text.splitAt_eq_cons, List.map_cons, List.forall_mem_cons, List.forall_mem_map]
    refine ⟨compiles_iff.mpr ⟨first, ?_⟩, fun segment hsegment => ?_⟩
    · rwa [String.toList_ofList]
    · obtain ⟨found, hfound⟩ := hrest segment hsegment
      refine compiles_iff.mpr ⟨found, ?_⟩
      rwa [String.toList_ofList]

/-! ### Expansion -/

/-- A text is a segment if it compiles. -/
theorem exists_parse_iff {text : String} : (∃ s, Segment.parse text = .ok s) ↔ Compiles text := by
  constructor
  · rintro ⟨s, hs⟩
    obtain ⟨found, hfound, -⟩ := bind_eq_ok_iff.mp hs
    exact ⟨found, hfound⟩
  · rintro ⟨found, hfound⟩
    exact ⟨⟨text, found⟩, bind_eq_ok_iff.mpr ⟨found, hfound, rfl⟩⟩

/-- The directory from which a pattern is followed. -/
def origin (p : Path) : Path := if p.isAbsolute then ⟨"/"⟩ else ⟨"."⟩

/-- The part of a pattern that is followed from there. -/
def course (p : Path) : String := if p.isAbsolute then (p.text.drop 1).toString else p.text

/-- **What an expansion gives.** -/
theorem expand_eq_ok {fs : FileSystem} {p : Path} {paths : List Path} :
    expand fs p = .ok paths ↔
      Compiles p.text ∧ ∃ segments, (segmentTexts (course p)).mapM Segment.parse = .ok segments ∧
        paths = if segments.isEmpty then [] else
          expandFrom fs ((course p).endsWith "/") (collapse segments) (origin p) := by
  have hstart : (if p.isAbsolute then ((⟨"/"⟩ : Path), (p.text.drop 1).toString)
      else (⟨"."⟩, p.text)) = (origin p, course p) := by
    unfold origin course
    split <;> rfl
  unfold expand
  simp only [hstart]
  constructor
  · intro h
    obtain ⟨found, hfound, hrest⟩ := bind_eq_ok_iff.mp h
    obtain ⟨segments, hsegments, hpaths⟩ := bind_eq_ok_iff.mp hrest
    refine ⟨⟨found, hfound⟩, segments, hsegments, ?_⟩
    cases segments with
    | nil => exact (Except.ok.inj hpaths).symm
    | cons => exact (Except.ok.inj hpaths).symm
  · rintro ⟨⟨found, hfound⟩, segments, hsegments, rfl⟩
    refine bind_eq_ok_iff.mpr ⟨found, hfound, bind_eq_ok_iff.mpr ⟨segments, hsegments, ?_⟩⟩
    cases segments with
    | nil => rfl
    | cons => rfl

/-- The segments that are followed are segments of the pattern. -/
theorem mem_segments_of_mem_course {p : Path} {segment : String}
    (h : segment ∈ segmentTexts (course p)) : segment ∈ p.segments := by
  have hcourse : segment ∈ (⟨course p⟩ : Path).segments := by
    unfold segmentTexts at h
    dsimp only at h
    split at h
    · exact List.mem_of_mem_dropLast h
    · exact h
  unfold course at hcourse
  split at hcourse
  · rename_i habsolute
    rw [Path.segments_of_isAbsolute habsolute]
    exact List.mem_cons_of_mem _ hcourse
  · exact hcourse

/-- Only empty segments are not followed: that before a slash in front, and
that behind a slash at the end. -/
theorem mem_course_of_mem_segments {p : Path} {segment : String} (h : segment ∈ p.segments)
    (hne : segment ≠ "") : segment ∈ segmentTexts (course p) := by
  have hcourse : segment ∈ (⟨course p⟩ : Path).segments := by
    unfold course
    split
    · rename_i habsolute
      rw [Path.segments_of_isAbsolute habsolute] at h
      exact (List.mem_cons.mp h).resolve_left hne
    · exact h
  unfold segmentTexts
  dsimp only
  split
  · rename_i hlast
    have hsplit := List.dropLast_append_getLast? "" (beq_iff_eq.mp hlast)
    have hmem : segment ∈ (⟨course p⟩ : Path).segments.dropLast ++ [""] := hsplit ▸ hcourse
    exact (List.mem_append.mp hmem).resolve_right (by simpa using hne)
  · exact hcourse

/-- **A pattern is expanded** exactly if all of its segments are patterns. -/
theorem exists_expand_iff {fs : FileSystem} {p : Path} :
    (∃ paths, expand fs p = .ok paths) ↔ ∀ segment ∈ p.segments, Compiles segment := by
  constructor
  · rintro ⟨paths, hpaths⟩ segment hsegment
    obtain ⟨-, segments, hsegments, -⟩ := expand_eq_ok.mp hpaths
    by_cases hempty : segment = ""
    · exact hempty ▸ compiles_empty
    · have hcourse := mem_course_of_mem_segments hsegment hempty
      exact exists_parse_iff.mp (forall_ok_of_mapM hsegments segment hcourse)
  · intro hsegments
    obtain ⟨found, hfound, -⟩ := exists_pieces_of_segments hsegments
    rcases hparsed : (segmentTexts (course p)).mapM Segment.parse with e | segments
    · obtain ⟨segment, hsegment, herror⟩ := exists_error_of_mapM hparsed
      obtain ⟨parsed, hok⟩ :=
        exists_parse_iff.mpr (hsegments segment (mem_segments_of_mem_course hsegment))
      rw [herror] at hok
      cases hok
    · exact ⟨_, expand_eq_ok.mpr ⟨⟨found, hfound⟩, segments, hparsed, rfl⟩⟩

end StringHarvest.Glob
