import Mathlib.Data.List.DropRight
import SkillEngine.Proofs.Json.Reading

/-!
# Skimming what was printed

A skimmer that is set on the text of a document comes to the end of it, if it
comes to an end at all.  Nothing is assumed of numbers: their texts consist of
the characters of numerals, a skimmer may stop in the middle of them, and then
what it stops at is no bracket and no comma, so whatever encloses the number is
not skimmed either.
-/

namespace SkillEngine.Json

/-! ## What is left behind a numeral -/

/-- The text does not go on with the character of a numeral. -/
def EndsNumeral (rest : List Char) : Prop :=
  ∀ c ∈ rest.head?, isNumeral c = false

theorem endsNumeral_nil : EndsNumeral [] := by
  simp [EndsNumeral]

theorem endsNumeral_cons {c : Char} (rest : List Char)
    (h : isNumeral c = false) : EndsNumeral (c :: rest) := by
  intro other hother
  obtain rfl : c = other := by simpa using hother
  exact h

theorem endsNumeral_newLine (depth : Nat) (rest : List Char) :
    EndsNumeral (newLine depth ++ rest) :=
  endsNumeral_cons _ (by decide)

/-- Nothing is left in front of the rest but the end of a numeral. -/
def Leaves (rest left : List Char) : Prop :=
  ∃ more, left = more ++ rest ∧ Numeral more

theorem leaves_refl (rest : List Char) : Leaves rest rest :=
  ⟨[], rfl, numeral_nil⟩

/-- If what follows is no numeral, there was nothing left of one. -/
theorem Leaves.eq_of_skipSpace {rest left behind : List Char} {c : Char}
    (h : Leaves rest left) (hleft : skipSpace left = c :: behind)
    (hc : isNumeral c = false) : left = rest := by
  obtain ⟨more, rfl, hmore⟩ := h
  cases more with
  | nil => rfl
  | cons first more =>
      have hfirst := (List.forall_mem_cons.mp hmore).1
      rw [List.cons_append, skipSpace, List.dropWhile_cons,
        isSpace_of_isNumeral hfirst] at hleft
      obtain ⟨rfl, -⟩ := List.cons.inj hleft
      rw [hc] at hfirst
      cases hfirst

/-- Taking the characters of a numeral off the text of a numeral leaves the end
of it. -/
theorem leaves_of_append {used left numeral rest : List Char}
    (hused : Numeral used) (hnumeral : Numeral numeral)
    (hrest : EndsNumeral rest) (h : numeral ++ rest = used ++ left) :
    Leaves rest left := by
  rcases List.append_eq_append_iff.mp h with
    ⟨beyond, rfl, rfl⟩ | ⟨more, rfl, rfl⟩
  · cases beyond with
    | nil => exact leaves_refl left
    | cons c beyond =>
        have hc : isNumeral c = true := hused c (by simp)
        have hends := hrest c rfl
        rw [hc] at hends
        cases hends
  · exact ⟨more, rfl, hnumeral.of_subset (List.subset_append_right _ _)⟩

/-- Characters of a numeral are taken off a text. -/
def TakesNumeral (text left : List Char) : Prop :=
  ∃ used, text = used ++ left ∧ Numeral used

theorem TakesNumeral.trans {text behind left : List Char}
    (hfirst : TakesNumeral text behind) (hsecond : TakesNumeral behind left) :
    TakesNumeral text left := by
  obtain ⟨first, rfl, hfirst⟩ := hfirst
  obtain ⟨second, rfl, hsecond⟩ := hsecond
  exact ⟨first ++ second, by simp, hfirst.append hsecond⟩

theorem takesNumeral_refl (text : List Char) : TakesNumeral text text :=
  ⟨[], rfl, numeral_nil⟩

theorem TakesNumeral.cons {c : Char} {text left : List Char}
    (hc : isNumeral c = true) (h : TakesNumeral text left) :
    TakesNumeral (c :: text) left := by
  obtain ⟨used, rfl, hused⟩ := h
  exact ⟨c :: used, rfl, .cons hc hused⟩

theorem takesNumeral_behindDigits (text : List Char) :
    TakesNumeral text (behindDigits text) :=
  ⟨leadingDigits text, List.takeWhile_append_dropWhile.symm,
    numeral_of_isDigit fun _ hc => List.mem_takeWhile_imp hc⟩

theorem takesNumeral_fraction {text left : List Char}
    {written : Option (List Char)} (h : fraction text = some (written, left)) :
    TakesNumeral text left := by
  unfold fraction at h
  split at h
  · split at h
    · simp at h
    · obtain ⟨-, rfl⟩ := Prod.ext_iff.mp (Option.some.inj h)
      exact .cons (by decide) (takesNumeral_behindDigits _)
  · obtain ⟨-, rfl⟩ := Prod.ext_iff.mp (Option.some.inj h)
    exact takesNumeral_refl _

theorem takesNumeral_exponentSign (text : List Char) :
    TakesNumeral text (exponentSign text).2 := by
  unfold exponentSign
  split
  · exact .cons (by decide) (takesNumeral_refl _)
  · exact .cons (by decide) (takesNumeral_refl _)
  · exact takesNumeral_refl _

theorem takesNumeral_exponent {text left : List Char}
    {written : Option (Bool × List Char)}
    (h : exponent text = some (written, left)) : TakesNumeral text left := by
  unfold exponent at h
  split at h
  · obtain ⟨-, rfl⟩ := Prod.ext_iff.mp (Option.some.inj h)
    exact takesNumeral_refl _
  next c rest =>
    split at h
    next hletter =>
      have hc : isNumeral c = true := by
        rcases hletter with rfl | rfl <;> decide
      dsimp only at h
      split at h
      · simp at h
      · obtain ⟨-, rfl⟩ := Prod.ext_iff.mp (Option.some.inj h)
        exact .cons hc ((takesNumeral_exponentSign rest).trans
          (takesNumeral_behindDigits _))
    · obtain ⟨-, rfl⟩ := Prod.ext_iff.mp (Option.some.inj h)
      exact takesNumeral_refl _

theorem takesNumeral_literal {negative : Bool} {text left : List Char}
    {found : NumberLiteral} (h : literal negative text = some (found, left)) :
    TakesNumeral text left := by
  rw [literal] at h
  dsimp only at h
  split at h
  · simp at h
  · obtain ⟨⟨decimals, behind⟩, hfraction, h⟩ := Option.bind_eq_some_iff.mp h
    obtain ⟨⟨scale, last⟩, hexponent, h⟩ := Option.bind_eq_some_iff.mp h
    obtain ⟨-, rfl⟩ := Prod.ext_iff.mp (Option.some.inj h)
    exact ((takesNumeral_behindDigits text).trans
      (takesNumeral_fraction hfraction)).trans (takesNumeral_exponent hexponent)

theorem takesNumeral_signedLiteral {text left : List Char}
    {found : NumberLiteral} (h : signedLiteral text = some (found, left)) :
    TakesNumeral text left := by
  unfold signedLiteral at h
  split at h
  · exact .cons (by decide) (takesNumeral_literal h)
  · exact takesNumeral_literal h

/-- A reader of numbers that is set on the text of a number leaves at most the
end of it. -/
theorem leaves_of_signedLiteral {numeral rest left : List Char}
    {found : NumberLiteral} (hnumeral : Numeral numeral)
    (hrest : EndsNumeral rest)
    (h : signedLiteral (numeral ++ rest) = some (found, left)) :
    Leaves rest left := by
  obtain ⟨used, htext, hused⟩ := takesNumeral_signedLiteral h
  exact leaves_of_append hused hnumeral hrest htext

/-! ## Quoted texts -/

theorem skimQuoted_escape (c : Char) (rest : List Char) :
    skimQuoted (escape c ++ rest) = skimQuoted rest := by
  rw [escape]
  iterate 7
    split
    next h =>
      subst h
      rfl
  split
  next hcontrol =>
    have hdigits : ∀ code < 32,
        ['0', '0', Text.hexDigit (code / 16), Text.hexDigit (code % 16)].all
          (fun digit => (Text.hexValue? digit).isSome) = true := by decide
    have hcode : c.toNat < 32 := hcontrol
    simp only [List.cons_append, List.nil_append]
    rw [skimQuoted, if_pos (hdigits _ hcode)]
  next hquote hbackslash _ _ _ _ _ hcontrol =>
    rw [List.cons_append, List.nil_append]
    conv_lhs => unfold skimQuoted
    split
    all_goals simp_all

theorem skimQuoted_quote (text rest : List Char) :
    skimQuoted (text.flatMap escape ++ '"' :: rest) = some rest := by
  induction text with
  | nil => rfl
  | cons c text ih =>
      rw [List.flatMap_cons, List.append_assoc, skimQuoted_escape, ih]

/-! ## One step of the skimmer -/

theorem skipSpace_skipSpace (text : List Char) :
    skipSpace (skipSpace text) = skipSpace text :=
  List.dropWhile_idempotent _ _


/-- The bracket that begins an enclosure. -/
def Enclosure.open : Enclosure → Char
  | array => '['
  | object => '{'

/-- The bracket that ends an enclosure. -/
def Enclosure.close : Enclosure → Char
  | array => ']'
  | object => '}'

/-- What stands behind a comma in an enclosure. -/
def Enclosure.inside : Enclosure → Expectation
  | array => .value
  | object => .name

theorem Enclosure.isNumeral_close (enclosure : Enclosure) :
    isNumeral enclosure.close = false := by
  cases enclosure <;> rfl

section Steps

variable (enclosure : Enclosure) {opened : List Enclosure} {fuel : Nat}
  {text more rest left behind : List Char}

/-- Behind a member of an enclosure stands a comma, or the enclosure ends. -/
theorem skimFrom_separator
    (h : skimFrom fuel .separator (enclosure :: opened) text = some left) :
    ∃ fuel more,
      (skipSpace text = ',' :: more ∧
        skimFrom fuel enclosure.inside (enclosure :: opened) more = some left) ∨
      (skipSpace text = enclosure.close :: more ∧
        skimFrom fuel .separator opened more = some left) := by
  cases fuel with
  | zero => simp [skimFrom] at h
  | succ fuel =>
      rw [skimFrom.eq_def] at h
      dsimp only at h
      split at h
      next htext => exact ⟨fuel, _, .inl ⟨htext, h⟩⟩
      next htext => exact ⟨fuel, _, .inl ⟨htext, h⟩⟩
      next htext => exact ⟨fuel, _, .inr ⟨htext, h⟩⟩
      next htext => exact ⟨fuel, _, .inr ⟨htext, h⟩⟩
      next => simp at h

theorem skimFrom_comma (hleaves : Leaves (',' :: more) behind)
    (h : skimFrom fuel .separator (enclosure :: opened) behind = some left) :
    ∃ fuel,
      skimFrom fuel enclosure.inside (enclosure :: opened) more = some left := by
  obtain ⟨fuel, after, ⟨hskip, h⟩ | ⟨hskip, -⟩⟩ := skimFrom_separator enclosure h
  · obtain rfl := hleaves.eq_of_skipSpace hskip (by decide)
    obtain ⟨-, rfl⟩ := List.cons.inj (show ',' :: more = ',' :: after from hskip)
    exact ⟨fuel, h⟩
  · obtain rfl := hleaves.eq_of_skipSpace hskip enclosure.isNumeral_close
    obtain ⟨hclose, -⟩ :=
      List.cons.inj (show ',' :: more = enclosure.close :: after from hskip)
    cases enclosure <;> simp [Enclosure.close] at hclose

theorem skimFrom_close {closing : Nat}
    (hleaves : Leaves (newLine closing ++ enclosure.close :: rest) behind)
    (h : skimFrom fuel .separator (enclosure :: opened) behind = some left) :
    ∃ fuel, skimFrom fuel .separator opened rest = some left := by
  have hclose : skipSpace (newLine closing ++ enclosure.close :: rest) =
      enclosure.close :: rest := by
    rw [skipSpace_newLine]
    cases enclosure <;> rfl
  obtain ⟨fuel, after, ⟨hskip, -⟩ | ⟨hskip, h⟩⟩ := skimFrom_separator enclosure h
  · obtain rfl := hleaves.eq_of_skipSpace hskip (by decide)
    obtain ⟨hcomma, -⟩ := List.cons.inj (hclose.symm.trans hskip)
    cases enclosure <;> simp [Enclosure.close] at hcomma
  · obtain rfl := hleaves.eq_of_skipSpace hskip enclosure.isNumeral_close
    obtain ⟨-, rfl⟩ := List.cons.inj (hclose.symm.trans hskip)
    exact ⟨fuel, h⟩

/-- An empty enclosure is passed. -/
theorem skimFrom_empty
    (htext : skipSpace text = enclosure.open :: enclosure.close :: rest)
    (h : skimFrom fuel .value opened text = some left) :
    ∃ fuel, skimFrom fuel .separator opened rest = some left := by
  cases fuel with
  | zero => simp [skimFrom] at h
  | succ fuel =>
      rw [skimFrom, htext] at h
      cases enclosure with
      | array => exact ⟨fuel, h⟩
      | object => exact ⟨fuel, h⟩

/-- An enclosure is entered when it does not end at once. -/
theorem skimFrom_open {inner : List Char} {c : Char}
    (htext : skipSpace text = enclosure.open :: inner)
    (hinner : skipSpace inner = c :: more) (hc : c ≠ enclosure.close)
    (h : skimFrom fuel .value opened text = some left) :
    ∃ fuel, skimFrom fuel enclosure.inside (enclosure :: opened)
      (skipSpace inner) = some left := by
  cases fuel with
  | zero => simp [skimFrom] at h
  | succ fuel =>
      rw [skimFrom, htext] at h
      cases enclosure with
      | array =>
          simp only [Enclosure.open, hinner] at h
          split at h
          next heq => exact absurd (List.cons.inj heq).1 hc
          next => exact ⟨fuel, hinner ▸ h⟩
      | object =>
          simp only [Enclosure.open, hinner] at h
          split at h
          next heq => exact absurd (List.cons.inj heq).1 hc
          next => exact ⟨fuel, hinner ▸ h⟩

/-- The name of a field is passed. -/
theorem skimFrom_name {name : String} {after : List Char}
    (htext : skipSpace text = quote name ++ ':' :: after)
    (h : skimFrom fuel .name opened text = some left) :
    ∃ fuel, skimFrom fuel .value opened after = some left := by
  cases fuel with
  | zero => simp [skimFrom] at h
  | succ fuel =>
      have hquote : quote name ++ ':' :: after =
          '"' :: (name.toList.flatMap escape ++ '"' :: ':' :: after) := by
        simp [quote]
      have hcolon : skipSpace (':' :: after) = ':' :: after := rfl
      rw [skimFrom, htext, hquote] at h
      simp only [skimQuoted_quote, Option.map_some, hcolon] at h
      exact ⟨fuel, h⟩

end Steps

/-! ## Skimming documents -/

/-- A skimmer that is set on the text of the document comes to what is behind
it, or to nothing. -/
def SkimsPast (document : Json) : Prop :=
  ∀ fuel opened depth text rest left, EndsNumeral rest →
    skipSpace text = document.prettyChars depth ++ rest →
    skimFrom fuel .value opened text = some left →
    ∃ fuel behind, Leaves rest behind ∧
      skimFrom fuel .separator opened behind = some left

theorem endsNumeral_comma (rest : List Char) : EndsNumeral (',' :: rest) :=
  endsNumeral_cons rest (by decide)

/-- The space behind a colon is passed. -/
theorem skipSpace_space_prettyChars (document : Json) (depth : Nat)
    (rest : List Char) :
    skipSpace (' ' :: (document.prettyChars depth ++ rest)) =
      document.prettyChars depth ++ rest :=
  skipSpace_prettyChars document depth rest

theorem skimFrom_prettyItems (depth closing : Nat) {item : Json}
    {items : List Json} (hskims : ∀ other ∈ item :: items, other.SkimsPast)
    {fuel : Nat} {opened : List Enclosure} {text rest left : List Char}
    (htext : skipSpace text = skipSpace
      (prettyItems depth (item :: items) ++ (newLine closing ++ ']' :: rest)))
    (h : skimFrom fuel .value (.array :: opened) text = some left) :
    ∃ fuel, skimFrom fuel .separator opened rest = some left := by
  induction items generalizing item fuel text with
  | nil =>
      rw [prettyItems, List.append_assoc, skipSpace_newLine,
        skipSpace_prettyChars] at htext
      obtain ⟨fuel, behind, hleaves, h⟩ := hskims item List.mem_cons_self _ _
        _ _ _ _ (endsNumeral_newLine _ _) htext h
      exact skimFrom_close .array hleaves h
  | cons next items ih =>
      obtain ⟨hitem, hitems⟩ := List.forall_mem_cons.mp hskims
      have hsplit : skipSpace text = item.prettyChars depth ++ ',' ::
          (prettyItems depth (next :: items) ++
            (newLine closing ++ ']' :: rest)) := by
        rw [htext, prettyItems]
        · simp only [List.append_assoc, List.cons_append]
          rw [skipSpace_newLine, skipSpace_prettyChars]
        · simp
      obtain ⟨fuel, behind, hleaves, h⟩ := hitem _ _ _ _ _ _
        (endsNumeral_comma _) hsplit h
      obtain ⟨fuel, h⟩ := skimFrom_comma .array hleaves h
      exact ih hitems rfl h

theorem skimFrom_prettyFields (depth closing : Nat) {field : String × Json}
    {fields : List (String × Json)}
    (hskims : ∀ other ∈ field :: fields, other.2.SkimsPast)
    {fuel : Nat} {opened : List Enclosure} {text rest left : List Char}
    (htext : skipSpace text = skipSpace
      (prettyFields depth (field :: fields) ++
        (newLine closing ++ '}' :: rest)))
    (h : skimFrom fuel .name (.object :: opened) text = some left) :
    ∃ fuel, skimFrom fuel .separator opened rest = some left := by
  induction fields generalizing field fuel text with
  | nil =>
      obtain ⟨name, value⟩ := field
      have hsplit : skipSpace text = quote name ++ ':' :: ' ' ::
          (value.prettyChars depth ++ (newLine closing ++ '}' :: rest)) := by
        rw [htext, prettyFields]
        simp only [List.append_assoc, List.cons_append]
        rw [skipSpace_newLine]
        rfl
      obtain ⟨fuel, h⟩ := skimFrom_name hsplit h
      obtain ⟨fuel, behind, hleaves, h⟩ := hskims _ List.mem_cons_self _ _ _ _
        _ _ (endsNumeral_newLine _ _) (skipSpace_space_prettyChars value depth _) h
      exact skimFrom_close .object hleaves h
  | cons next fields ih =>
      obtain ⟨name, value⟩ := field
      obtain ⟨hvalue, hfields⟩ := List.forall_mem_cons.mp hskims
      have hsplit : skipSpace text = quote name ++ ':' :: ' ' ::
          (value.prettyChars depth ++ ',' ::
            (prettyFields depth (next :: fields) ++
              (newLine closing ++ '}' :: rest))) := by
        rw [htext, prettyFields]
        · simp only [List.append_assoc, List.cons_append]
          rw [skipSpace_newLine]
          rfl
        · simp
      obtain ⟨fuel, h⟩ := skimFrom_name hsplit h
      obtain ⟨fuel, behind, hleaves, h⟩ := hvalue _ _ _ _ _ _
        (endsNumeral_comma _) (skipSpace_space_prettyChars value depth _) h
      obtain ⟨fuel, h⟩ := skimFrom_comma .object hleaves h
      exact ih hfields rfl h

/-- A value without brackets is passed in one step. -/
theorem skimFrom_plain {fuel : Nat} {opened : List Enclosure} {c : Char}
    {text more left : List Char} (htext : skipSpace text = c :: more)
    (harray : c ≠ '[') (hobject : c ≠ '{')
    (h : skimFrom fuel .value opened text = some left) :
    ∃ fuel behind, skimPlain (c :: more) = some behind ∧
      skimFrom fuel .separator opened behind = some left := by
  cases fuel with
  | zero => simp [skimFrom] at h
  | succ fuel =>
      rw [skimFrom, htext] at h
      split at h
      next heq => exact absurd (List.cons.inj heq).1 harray
      next heq => exact absurd (List.cons.inj heq).1 hobject
      next =>
        split at h
        next behind hplain => exact ⟨fuel, behind, hplain, h⟩
        next => simp at h

theorem skimPlain_word {word : String} (hword : word ∈ valueWords)
    (rest : List Char) : skimPlain (word.toList ++ rest) = some rest := by
  simp only [valueWords, List.mem_cons, List.not_mem_nil, or_false] at hword
  rcases hword with rfl | rfl | rfl <;> rfl

theorem skimPlain_numeral {c : Char} {more : List Char}
    (hc : isNumeral c = true) :
    skimPlain (c :: more) = (signedLiteral (c :: more)).map (·.2) := by
  have hwords : valueWords.find? (·.toList.isPrefixOf (c :: more)) = none := by
    have hne : ∀ letter, isNumeral letter = false → (letter == c) = false := by
      intro letter hletter
      rw [beq_eq_false_iff_ne]
      rintro rfl
      rw [hletter] at hc
      cases hc
    simp [valueWords, List.isPrefixOf, hne 'n' rfl, hne 't' rfl, hne 'f' rfl]
  by_cases hminus : c = '-'
  · subst hminus
    rfl
  · have hquote : c ≠ '"' := by
      rintro rfl
      cases hc
    simp [skimPlain, signedLiteral, hminus, hquote, hwords]

theorem word_skimsPast {document : Json} (word : String)
    (hword : word ∈ valueWords)
    (hprinted : ∀ depth, document.prettyChars depth = word.toList) :
    document.SkimsPast := by
  intro fuel opened depth text rest left _ htext h
  rw [hprinted] at htext
  have hplain := skimPlain_word hword rest
  simp only [valueWords, List.mem_cons, List.not_mem_nil, or_false] at hword
  rcases hword with rfl | rfl | rfl
  all_goals
    obtain ⟨fuel, behind, hskim, h⟩ :=
      skimFrom_plain htext (by decide) (by decide) h
    obtain rfl := Option.some.inj (hplain.symm.trans hskim)
    exact ⟨fuel, rest, leaves_refl rest, h⟩

theorem number_skimsPast (value : Number) : (number value).SkimsPast := by
  rcases numberText_cases value with hnull | ⟨c, more, hnumber, hnumeral⟩
  · exact word_skimsPast "null" (by decide) fun _ => hnull
  · intro fuel opened depth text rest left hrest htext h
    have hc := (List.forall_mem_cons.mp hnumeral).1
    have hprinted : (number value).prettyChars depth = c :: more := hnumber
    rw [hprinted, List.cons_append] at htext
    obtain ⟨fuel, behind, hskim, h⟩ := skimFrom_plain htext
      (by rintro rfl; cases hc) (by rintro rfl; cases hc) h
    rw [skimPlain_numeral hc] at hskim
    obtain ⟨⟨found, behind⟩, hfound, rfl⟩ := Option.map_eq_some_iff.mp hskim
    exact ⟨fuel, behind, leaves_of_signedLiteral hnumeral hrest hfound, h⟩

/-- Every document that is printed is skimmed past. -/
theorem skimsPast (document : Json) : document.SkimsPast := by
  induction document with
  | null => exact word_skimsPast "null" (by decide) fun _ => rfl
  | bool value =>
      cases value with
      | false => exact word_skimsPast "false" (by decide) fun _ => rfl
      | true => exact word_skimsPast "true" (by decide) fun _ => rfl
  | number value => exact number_skimsPast value
  | string value =>
      intro fuel opened depth text rest left _ htext h
      have hquote : (string value).prettyChars depth ++ rest =
          '"' :: (value.toList.flatMap escape ++ '"' :: rest) := by
        simp [prettyChars, quote]
      rw [hquote] at htext
      obtain ⟨fuel, behind, hskim, h⟩ :=
        skimFrom_plain htext (by decide) (by decide) h
      rw [skimPlain, skimQuoted_quote] at hskim
      obtain rfl := Option.some.inj hskim
      exact ⟨fuel, rest, leaves_refl rest, h⟩
  | array items ih =>
      intro fuel opened depth text rest left _ htext h
      cases items with
      | nil =>
          obtain ⟨fuel, h⟩ := skimFrom_empty .array htext h
          exact ⟨fuel, rest, leaves_refl rest, h⟩
      | cons item items =>
          have hopen : skipSpace text = '[' ::
              (prettyItems (depth + 1) (item :: items) ++
                (newLine depth ++ ']' :: rest)) := by
            rw [htext]
            simp [prettyChars]
          obtain ⟨c, more, hinner, hc⟩ := skipSpace_prettyItems (depth + 1)
            item items (newLine depth ++ ']' :: rest)
          obtain ⟨fuel, h⟩ := skimFrom_open .array hopen hinner hc h
          obtain ⟨fuel, h⟩ := skimFrom_prettyItems (depth + 1) depth ih
            (skipSpace_skipSpace _) h
          exact ⟨fuel, rest, leaves_refl rest, h⟩
  | object fields ih =>
      intro fuel opened depth text rest left _ htext h
      cases fields with
      | nil =>
          obtain ⟨fuel, h⟩ := skimFrom_empty .object htext h
          exact ⟨fuel, rest, leaves_refl rest, h⟩
      | cons field fields =>
          have hopen : skipSpace text = '{' ::
              (prettyFields (depth + 1) (field :: fields) ++
                (newLine depth ++ '}' :: rest)) := by
            rw [htext]
            simp [prettyChars]
          obtain ⟨more, hinner⟩ := skipSpace_prettyFields (depth + 1) field
            fields (newLine depth ++ '}' :: rest)
          obtain ⟨fuel, h⟩ := skimFrom_open .object hopen hinner (by decide) h
          obtain ⟨fuel, h⟩ := skimFrom_prettyFields (depth + 1) depth ih
            (skipSpace_skipSpace _) h
          exact ⟨fuel, rest, leaves_refl rest, h⟩

/-- A reader that passes over a printed document leaves at most the end of a
numeral in front of the rest. -/
theorem leaves_of_passOver {document found : Json} {depth : Nat}
    {text rest left : List Char} (hrest : EndsNumeral rest)
    (htext : skipSpace text = document.prettyChars depth ++ rest)
    (h : passOver text = some (found, left)) :
    found = null ∧ Leaves rest left := by
  obtain ⟨other, hskim, heq⟩ := Option.map_eq_some_iff.mp h
  obtain ⟨rfl, rfl⟩ := Prod.ext_iff.mp heq
  obtain ⟨fuel, behind, hleaves, hend⟩ :=
    document.skimsPast _ _ _ _ _ _ hrest htext hskim
  cases fuel with
  | zero => simp [skimFrom] at hend
  | succ fuel =>
      obtain rfl : behind = other := by simpa [skimFrom] using hend
      exact ⟨rfl, hleaves⟩

end SkillEngine.Json
