import Mathlib.Data.List.Flatten
import SkillEngine.Proofs.Text.Pieces
import SkillEngine.Text.Stats

/-!
# Figures of a text and of its parts

Words, lines and paragraphs are pieces of a text between separators, and what
counts of them are the pieces with ink: those that hold more than white space.
Words are cut more finely than lines, and paragraphs less finely than both, so
a paragraph with ink has a word and a line with ink in it, and no two
paragraphs share one.

An empty line between two texts separates words, lines and paragraphs.  For the
paragraphs this is not plain, since the pairs of line feeds are found from the
left: when the first text ends in a single line feed, it makes a pair with the
first one that follows, and what stands behind begins with the other.  But a
line feed at the beginning of a block is white space, and does not change what
counts.
-/

namespace SkillEngine.Text

variable {separates : Char → Bool}

/-! ## Pieces with ink -/

/-- The pieces of a text between the characters of a class that hold more than
white space. -/
def inked (separates : Char → Bool) (text : List Char) : List (List Char) :=
  (cut separates text).filter (!allBlank ·)

theorem inked_append (hline : separates '\n' = true) (first second : List Char) :
    inked separates (first ++ ['\n', '\n'] ++ second) =
      inked separates first ++ inked separates second := by
  have hcut : cut separates (first ++ ['\n', '\n'] ++ second) =
      cut separates first ++ [] :: cut separates second := by
    have hempty : cut separates ('\n' :: second) = [] :: cut separates second := by
      rw [cut, if_pos hline]
    rw [List.append_assoc, List.cons_append, List.singleton_append,
      cut_append hline, hempty]
  rw [inked, hcut, List.filter_append, List.filter_cons_of_neg (by simp [allBlank])]
  rfl

/-- Where all separators are white space, ink is in some piece. -/
theorem inked_ne_nil (hblank : ∀ c, separates c = true → isBlank c = true)
    {text : List Char} (hink : allBlank text = false) :
    inked separates text ≠ [] := by
  obtain ⟨c, hmem, hc⟩ := List.all_eq_false.mp hink
  have hfree : separates c = false := by
    simpa using mt (hblank c) hc
  obtain ⟨piece, hpiece, hmem⟩ := exists_mem_cut_iff.mpr ⟨hmem, hfree⟩
  have hpieceInk : allBlank piece = false :=
    List.all_eq_false.mpr ⟨c, hmem, hc⟩
  exact List.ne_nil_of_mem
    (List.mem_filter.mpr ⟨hpiece, by simp [hpieceInk]⟩)

theorem length_le_flatten {pieces : List (List Char)}
    (h : ∀ piece ∈ pieces, piece ≠ []) :
    pieces.length ≤ pieces.flatten.length := by
  induction pieces with
  | nil => exact Nat.le_refl 0
  | cons piece pieces ih =>
      obtain ⟨hpiece, hpieces⟩ := List.forall_mem_cons.mp h
      have hpos : 0 < piece.length := List.length_pos_iff.mpr hpiece
      have hle := ih hpieces
      rw [List.flatten_cons, List.length_append, List.length_cons]
      omega

theorem length_inked_le (separates : Char → Bool) (text : List Char) :
    (inked separates text).length ≤ text.length := by
  have hne : ∀ piece ∈ inked separates text, piece ≠ [] := by
    rintro piece hpiece rfl
    simp [inked, allBlank] at hpiece
  calc
    (inked separates text).length ≤ (inked separates text).flatten.length :=
      length_le_flatten hne
    _ ≤ (cut separates text).flatten.length :=
      List.filter_sublist.flatten.length_le
    _ = (text.filter (!separates ·)).length := by rw [flatten_cut]
    _ ≤ text.length := List.length_filter_le _ _

theorem words_eq_inked (text : List Char) : words text = inked isBlank text := by
  apply List.filter_congr
  intro piece hpiece
  cases piece with
  | nil => rfl
  | cons c piece =>
      have hfree := (exists_mem_cut_iff.mp ⟨_, hpiece, List.mem_cons_self⟩).2
      simp [allBlank, hfree]

/-! ## Lines -/

theorem lines_newLine (rest : List Char) :
    lines ('\n' :: rest) = [] :: lines rest := by
  obtain ⟨first, others, hcut⟩ :=
    List.exists_cons_of_ne_nil (cut_ne_nil (· == '\n') rest)
  have hrest : cutLines rest = first :: others := hcut
  have hline : cutLines ('\n' :: rest) = [] :: cutLines rest := rfl
  rw [lines, lines, hline, hrest, List.getLast?_cons_cons]
  split
  · rfl
  · rfl

theorem lines_cons {c : Char} (hc : c ≠ '\n') (rest : List Char) :
    lines (c :: rest) = extend c (lines rest) := by
  obtain ⟨first, others, hcut⟩ :=
    List.exists_cons_of_ne_nil (cut_ne_nil (· == '\n') rest)
  have hrest : cutLines rest = first :: others := hcut
  have hline : cutLines (c :: rest) = (c :: first) :: others := by
    rw [cutLines, cut, hcut, if_neg (by simpa using hc), extend]
  rw [lines, lines, hline, hrest]
  cases others with
  | nil => cases first <;> rfl
  | cons next others =>
      rw [List.getLast?_cons_cons, List.getLast?_cons_cons]
      split
      · rfl
      · rfl

theorem length_extend_le (c : Char) (pieces : List (List Char)) :
    (extend c pieces).length ≤ pieces.length + 1 := by
  cases pieces with
  | nil => exact Nat.le_refl 1
  | cons piece pieces => exact Nat.le_succ _

theorem length_lines_le (text : List Char) :
    (lines text).length ≤ text.length := by
  induction text with
  | nil => exact Nat.le_refl 0
  | cons c rest ih =>
      by_cases hc : c = '\n'
      · subst hc
        rw [lines_newLine]
        exact Nat.succ_le_succ ih
      · rw [lines_cons hc]
        exact Nat.le_trans (length_extend_le c _) (Nat.succ_le_succ ih)

theorem inked_eq_filter_lines (text : List Char) :
    inked (· == '\n') text = (lines text).filter (!allBlank ·) := by
  rw [lines]
  split
  next hlast =>
    obtain ⟨front, hcut⟩ := List.getLast?_eq_some_iff.mp hlast
    rw [inked, ← cutLines, hcut, List.dropLast_concat, List.filter_append]
    simp [allBlank]
  next => rfl

/-! ## Blocks -/

theorem cutBlocks_ne_nil (text : List Char) : cutBlocks text ≠ [] := by
  fun_cases cutBlocks text with
  | case1 => exact List.cons_ne_nil _ _
  | case2 rest => exact List.cons_ne_nil _ _
  | case3 c rest _ => cases cutBlocks rest <;> exact List.cons_ne_nil _ _

theorem join_extend (separator : List Char) (c : Char)
    {pieces : List (List Char)} (hne : pieces ≠ []) :
    join separator (extend c pieces) = c :: join separator pieces := by
  cases pieces with
  | nil => exact absurd rfl hne
  | cons piece pieces =>
      cases pieces with
      | nil => rfl
      | cons next pieces => rfl

theorem join_cutBlocks (text : List Char) :
    join ['\n', '\n'] (cutBlocks text) = text := by
  fun_induction cutBlocks text with
  | case1 => rfl
  | case2 rest ih => rw [join_cons _ _ (cutBlocks_ne_nil rest), ih]; rfl
  | case3 c rest _ ih => rw [join_extend _ c (cutBlocks_ne_nil rest), ih]

/-- Each block with ink has a piece with ink of its own. -/
theorem length_filter_blocks_le (hline : separates '\n' = true)
    (hblank : ∀ c, separates c = true → isBlank c = true)
    (blocks : List (List Char)) :
    (blocks.filter (!allBlank ·)).length ≤
      (inked separates (join ['\n', '\n'] blocks)).length := by
  have hblock : ∀ block, ([block].filter (!allBlank ·)).length ≤
      (inked separates block).length := by
    intro block
    cases hink : allBlank block with
    | true => simp [hink]
    | false =>
        rw [List.filter_cons_of_pos (by simp [hink])]
        exact List.length_pos_iff.mpr (inked_ne_nil hblank hink)
  induction blocks with
  | nil => exact Nat.zero_le _
  | cons block blocks ih =>
      by_cases hne : blocks = []
      · subst hne
        exact hblock block
      · rw [join_cons _ _ hne, inked_append hline, ← List.singleton_append,
          List.filter_append, List.length_append, List.length_append]
        exact Nat.add_le_add (hblock block) ih

theorem length_paragraphs_le (hline : separates '\n' = true)
    (hblank : ∀ c, separates c = true → isBlank c = true)
    (text : List Char) :
    (paragraphs text).length ≤ (inked separates text).length := by
  have hle := length_filter_blocks_le hline hblank (cutBlocks text)
  rwa [join_cutBlocks] at hle

/-! ## Paragraphs one after another -/

/-- How many paragraphs begin in a text, which goes on in a paragraph if `inside`
holds.  A paragraph begins with its first character that is not white space. -/
def beginnings (inside : Bool) : List Char → Nat
  | [] => 0
  | '\n' :: '\n' :: rest => beginnings false rest
  | c :: rest =>
    if isBlank c then beginnings inside rest
    else (if inside then 0 else 1) + beginnings true rest

theorem cutBlocks_cons {c : Char} {rest : List Char}
    (hpair : ∀ others, c = '\n' → rest = '\n' :: others → False) :
    cutBlocks (c :: rest) = extend c (cutBlocks rest) := by
  rw [cutBlocks]
  exact hpair

/-- The first block of the text has begun before if `inside` holds, and every
other block with ink is one paragraph more. -/
theorem beginnings_eq (inside : Bool) {text first : List Char}
    {others : List (List Char)} (hcut : cutBlocks text = first :: others) :
    beginnings inside text =
      (if inside || allBlank first then 0 else 1) +
        (others.filter (!allBlank ·)).length := by
  fun_induction beginnings inside text generalizing first others with
  | case1 inside =>
      obtain ⟨rfl, rfl⟩ := List.cons_eq_cons.mp hcut
      simp [allBlank]
  | case2 inside rest ih =>
      obtain ⟨rfl, rfl⟩ := List.cons_eq_cons.mp hcut
      obtain ⟨next, others, hrest⟩ :=
        List.exists_cons_of_ne_nil (cutBlocks_ne_nil rest)
      rw [ih hrest, hrest, List.filter_cons]
      cases hink : allBlank next with
      | true => simp [allBlank]
      | false => simp [allBlank, Nat.add_comm]
  | case3 inside c rest hpair hc ih =>
      obtain ⟨next, others, hrest⟩ :=
        List.exists_cons_of_ne_nil (cutBlocks_ne_nil rest)
      rw [cutBlocks_cons hpair, hrest] at hcut
      obtain ⟨rfl, rfl⟩ := List.cons_eq_cons.mp hcut
      have hblank : allBlank (c :: next) = allBlank next := by
        simp [allBlank, hc]
      rw [ih hrest, hblank]
  | case4 inside c rest hpair hc ih =>
      obtain ⟨next, others, hrest⟩ :=
        List.exists_cons_of_ne_nil (cutBlocks_ne_nil rest)
      rw [cutBlocks_cons hpair, hrest] at hcut
      obtain ⟨rfl, rfl⟩ := List.cons_eq_cons.mp hcut
      have hink : allBlank (c :: next) = false := by
        simp [allBlank, hc]
      rw [ih hrest, hink, Bool.true_or, Bool.or_false, if_pos rfl, Nat.zero_add]

theorem length_paragraphs_eq (text : List Char) :
    (paragraphs text).length = beginnings false text := by
  obtain ⟨first, others, hcut⟩ :=
    List.exists_cons_of_ne_nil (cutBlocks_ne_nil text)
  rw [beginnings_eq false hcut, paragraphs, hcut, List.filter_cons]
  cases hink : allBlank first with
  | true => simp
  | false => simp [Nat.add_comm]

theorem beginnings_cons (inside : Bool) {c : Char} {rest : List Char}
    (hpair : ∀ others, c = '\n' → rest = '\n' :: others → False) :
    beginnings inside (c :: rest) =
      if isBlank c then beginnings inside rest
      else (if inside then 0 else 1) + beginnings true rest := by
  rw [beginnings]
  exact hpair

/-- Where no paragraph has begun, a line feed more changes nothing, although the
pairs behind it may be found elsewhere. -/
theorem beginnings_newLine (rest : List Char) :
    beginnings false ('\n' :: rest) = beginnings false rest := by
  induction rest with
  | nil => rfl
  | cons c rest ih =>
      by_cases hc : c = '\n'
      · subst hc
        rw [beginnings, ih]
      · have hpair : ∀ others, '\n' = '\n' → c :: rest = '\n' :: others →
            False := fun others _ heq => hc (List.cons_eq_cons.mp heq).1
        rw [beginnings_cons false hpair, if_pos (by decide)]

/-- A text that does not begin with a pair of line feeds does not come to do so
by what follows, unless a single line feed is the whole text. -/
theorem no_pair_append {c : Char} {rest : List Char}
    (hpair : ∀ others, c = '\n' → rest = '\n' :: others → False)
    (halone : c = '\n' → rest ≠ []) (behind others : List Char)
    (hc : c = '\n') (hrest : rest ++ behind = '\n' :: others) : False := by
  obtain ⟨d, rest, rfl⟩ := List.exists_cons_of_ne_nil (halone hc)
  obtain ⟨rfl, -⟩ := List.cons_eq_cons.mp hrest
  exact hpair rest hc rfl

theorem beginnings_append (inside : Bool) (first second : List Char) :
    beginnings inside (first ++ ['\n', '\n'] ++ second) =
      beginnings inside first + beginnings false second := by
  rw [List.append_assoc]
  fun_induction beginnings inside first with
  | case1 inside => exact (Nat.zero_add _).symm
  | case2 inside rest ih => exact ih
  | case3 inside c rest hpair hblank ih =>
      by_cases halone : c = '\n' ∧ rest = []
      · -- The pair is found one line feed earlier than it was put in.
        obtain ⟨rfl, rfl⟩ := halone
        exact (beginnings_newLine second).trans (Nat.zero_add _).symm
      · have hpair := no_pair_append hpair
          (fun hc hrest => halone ⟨hc, hrest⟩) (['\n', '\n'] ++ second)
        rw [List.cons_append, beginnings_cons inside hpair, if_pos hblank, ih]
  | case4 inside c rest hpair hink ih =>
      have hc : c ≠ '\n' := by
        rintro rfl
        exact hink (by decide)
      have hpair := no_pair_append hpair (fun heq => absurd heq hc)
        (['\n', '\n'] ++ second)
      rw [List.cons_append, beginnings_cons inside hpair, if_neg hink, ih,
        Nat.add_assoc]

/-! ## The figures together -/

/-- The figures can be those of one text. -/
structure Coherent (figures : TextStats) : Prop where
  paragraphs_le_words : figures.paragraphs ≤ figures.words
  words_le_characters : figures.words ≤ figures.characters
  paragraphs_le_lines : figures.paragraphs ≤ figures.lines
  lines_le_characters : figures.lines ≤ figures.characters

theorem coherent_stats (text : List Char) : Coherent (stats text) where
  paragraphs_le_words := by
    have hle : (paragraphs text).length ≤ (inked isBlank text).length :=
      length_paragraphs_le (by decide) (fun _ => id) text
    rwa [← words_eq_inked] at hle
  words_le_characters := by
    have hle := length_inked_le isBlank text
    rwa [← words_eq_inked] at hle
  paragraphs_le_lines := by
    have hblank : ∀ c : Char, (c == '\n') = true → isBlank c = true := by
      intro c hc
      obtain rfl : c = '\n' := by simpa using hc
      decide
    have hle : (paragraphs text).length ≤ (inked (· == '\n') text).length :=
      length_paragraphs_le (by decide) hblank text
    rw [inked_eq_filter_lines] at hle
    exact Nat.le_trans hle (List.length_filter_le _ _)
  lines_le_characters := length_lines_le text

/-- The figures of a text are coherent, and two texts with an empty line between
them have the words and the paragraphs of both. -/
theorem stats_coherent_additive (first second : List Char) :
    Coherent (stats first) ∧
      (stats (first ++ ['\n', '\n'] ++ second)).words =
        (stats first).words + (stats second).words ∧
      (stats (first ++ ['\n', '\n'] ++ second)).paragraphs =
        (stats first).paragraphs + (stats second).paragraphs := by
  refine ⟨coherent_stats first, ?_, ?_⟩
  · simp only [stats, words_eq_inked]
    rw [inked_append (by decide), List.length_append]
  · simp only [stats, length_paragraphs_eq]
    exact beginnings_append false first second

example : stats "a\n\n\n b\n".toList = ⟨2, 7, 4, 2⟩ := by decide

end SkillEngine.Text
