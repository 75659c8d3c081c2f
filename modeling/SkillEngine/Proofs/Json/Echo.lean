import Mathlib.Data.List.Forall2
import SkillEngine.Proofs.Json.Skimming

/-!
# What printed documents are read as

Without any assumption on numbers, a reader need not give a printed document
back, and it may fail.  If it succeeds, what it gives is an *echo* of the
document: texts, truth values and the names of fields are as they were, numbers
are any numbers, and null may stand for what was passed over or lost.
-/

namespace SkillEngine.Json

/-! ## Echoes -/

/-- The second document is what may be read of the first one's text. -/
inductive Echoes : Json → Json → Prop
  | lost (printed : Json) : Echoes printed null
  | bool (value : Bool) : Echoes (bool value) (bool value)
  | number (printed found : Number) : Echoes (number printed) (number found)
  | string (value : String) : Echoes (string value) (string value)
  | array {printed found : List Json}
      (hitems : List.Forall₂ Echoes printed found) :
      Echoes (array printed) (array found)
  | object {printed found : List (String × Json)}
      (hnames : printed.map (·.1) = found.map (·.1))
      (hvalues : List.Forall₂ Echoes (printed.map (·.2)) (found.map (·.2))) :
      Echoes (object printed) (object found)

/-- Fields with their names, of which the contents are echoes. -/
structure EchoFields (printed found : List (String × Json)) : Prop where
  names : printed.map (·.1) = found.map (·.1)
  values : List.Forall₂ Echoes (printed.map (·.2)) (found.map (·.2))

theorem echoFields_nil : EchoFields [] [] :=
  ⟨rfl, .nil⟩

theorem EchoFields.cons {name : String} {value heard : Json}
    {printed found : List (String × Json)} (hvalue : Echoes value heard)
    (h : EchoFields printed found) :
    EchoFields ((name, value) :: printed) ((name, heard) :: found) :=
  ⟨congrArg (name :: ·) h.names, .cons hvalue h.values⟩

/-- A field is found in an echo exactly when it was printed. -/
theorem EchoFields.find? {printed found : List (String × Json)}
    (h : EchoFields printed found) (name : String) :
    Option.Rel Echoes (Dict.find? printed name) (Dict.find? found name) := by
  induction printed generalizing found with
  | nil =>
      have hnil : found = [] := by simpa using h.names.symm
      subst hnil
      exact .none
  | cons entry printed ih =>
      cases found with
      | nil => simpa using h.names
      | cons heard found =>
          obtain ⟨hname, hnames⟩ : entry.1 = heard.1 ∧ _ :=
            List.cons.inj h.names
          obtain ⟨hvalue, hvalues⟩ := List.forall₂_cons.mp h.values
          rw [Dict.find?_cons, Dict.find?_cons, ← hname]
          split
          · exact .some hvalue
          · exact ih ⟨hnames, hvalues⟩

/-! ## Readers of printed documents -/

/-- What the reader makes of the text of the document is an echo of it, and at
most the end of a numeral is left of the text. -/
def Echoing (document : Json) (reader : ValueReader) : Prop :=
  ∀ depth text rest found left, EndsNumeral rest →
    skipSpace text = document.prettyChars depth ++ rest →
    reader text = some (found, left) →
    Echoes document found ∧ Leaves rest left

theorem echoing_passOver (document : Json) : document.Echoing passOver := by
  intro depth text rest found left hrest htext h
  obtain ⟨rfl, hleaves⟩ := leaves_of_passOver hrest htext h
  exact ⟨.lost document, hleaves⟩

/-- Behind an item stands a comma, or the array ends. -/
theorem items_succ {reader : Nat → ValueReader} {position fuel : Nat}
    {text left : List Char} {found : List Json}
    (h : items reader position (fuel + 1) text = some (found, left)) :
    ∃ value behind, reader position text = some (value, behind) ∧
      ((∃ more values, skipSpace behind = ',' :: more ∧
          items reader (position + 1) fuel more = some (values, left) ∧
          found = value :: values) ∨
        skipSpace behind = ']' :: left ∧ found = [value]) := by
  rw [items] at h
  obtain ⟨⟨value, behind⟩, hvalue, h⟩ := Option.bind_eq_some_iff.mp h
  refine ⟨value, behind, hvalue, ?_⟩
  dsimp only at h
  split at h
  next more hskip =>
    obtain ⟨⟨values, last⟩, hmore, h⟩ := Option.bind_eq_some_iff.mp h
    obtain ⟨rfl, rfl⟩ := Prod.ext_iff.mp (Option.some.inj h)
    exact .inl ⟨more, values, hskip, hmore, rfl⟩
  next more hskip =>
    obtain ⟨rfl, rfl⟩ := Prod.ext_iff.mp (Option.some.inj h)
    exact .inr ⟨hskip, rfl⟩
  next => simp at h

/-- Behind a field stands a comma, or the object ends. -/
theorem fields_succ {content : String → ValueReader} {fuel : Nat}
    {name : String} {text after left : List Char}
    {found : List (String × Json)}
    (htext : skipSpace text = quote name ++ ':' :: after)
    (h : fields content (fuel + 1) text = some (found, left)) :
    ∃ value behind, content name after = some (value, behind) ∧
      ((∃ more values, skipSpace behind = ',' :: more ∧
          fields content fuel more = some (values, left) ∧
          found = (name, value) :: values) ∨
        skipSpace behind = '}' :: left ∧ found = [(name, value)]) := by
  rw [fields_named htext] at h
  obtain ⟨⟨value, behind⟩, hvalue, h⟩ := Option.bind_eq_some_iff.mp h
  refine ⟨value, behind, hvalue, ?_⟩
  dsimp only at h
  split at h
  next more hskip =>
    obtain ⟨⟨values, last⟩, hmore, h⟩ := Option.map_eq_some_iff.mp h
    obtain ⟨rfl, rfl⟩ := Prod.ext_iff.mp h
    exact .inl ⟨more, values, hskip, hmore, rfl⟩
  next more hskip =>
    obtain ⟨rfl, rfl⟩ := Prod.ext_iff.mp (Option.some.inj h)
    exact .inr ⟨hskip, rfl⟩
  next => simp at h

section Ends

variable {closing : Nat} {c : Char} {rest behind more : List Char}

/-- Only its own bracket ends an enclosure. -/
theorem eq_of_closing (hc : isSpace c = false)
    (hleaves : Leaves (newLine closing ++ c :: rest) behind)
    {other : Char} (hother : isNumeral other = false)
    (hskip : skipSpace behind = other :: more) : other = c ∧ more = rest := by
  obtain rfl := hleaves.eq_of_skipSpace hskip hother
  have hclose : skipSpace (c :: rest) = c :: rest := by
    rw [skipSpace, List.dropWhile_cons, hc]
    rfl
  rw [skipSpace_newLine, hclose] at hskip
  obtain ⟨rfl, rfl⟩ := List.cons.inj hskip
  exact ⟨rfl, rfl⟩

theorem eq_of_comma (hleaves : Leaves (',' :: rest) behind) {other : Char}
    (hother : isNumeral other = false)
    (hskip : skipSpace behind = other :: more) : other = ',' ∧ more = rest := by
  obtain rfl := hleaves.eq_of_skipSpace hskip hother
  obtain ⟨rfl, rfl⟩ :=
    List.cons.inj (show ',' :: rest = other :: more from hskip)
  exact ⟨rfl, rfl⟩

end Ends

theorem items_echo {reader : Nat → ValueReader} (depth closing : Nat)
    {item : Json} {printed : List Json}
    (hechoing : ∀ other ∈ item :: printed, ∀ position,
      other.Echoing (reader position))
    {position fuel : Nat} {text rest left : List Char} {found : List Json}
    (htext : skipSpace text = skipSpace
      (prettyItems depth (item :: printed) ++ (newLine closing ++ ']' :: rest)))
    (h : items reader position fuel text = some (found, left)) :
    List.Forall₂ Echoes (item :: printed) found ∧ left = rest := by
  induction printed generalizing item position fuel text found with
  | nil =>
      rw [prettyItems, List.append_assoc, skipSpace_newLine,
        skipSpace_prettyChars] at htext
      cases fuel with
      | zero => simp [items] at h
      | succ fuel =>
          obtain ⟨value, behind, hvalue, h⟩ := items_succ h
          obtain ⟨hecho, hleaves⟩ := hechoing item List.mem_cons_self position
            _ _ _ _ _ (endsNumeral_newLine _ _) htext hvalue
          rcases h with ⟨more, values, hskip, -, -⟩ | ⟨hskip, rfl⟩
          · have hend := (eq_of_closing rfl hleaves (by decide) hskip).1
            exact absurd hend (by decide)
          · exact ⟨.cons hecho .nil,
              (eq_of_closing rfl hleaves (by decide) hskip).2⟩
  | cons next printed ih =>
      obtain ⟨hitem, hprinted⟩ := List.forall_mem_cons.mp hechoing
      have hsplit : skipSpace text = item.prettyChars depth ++ ',' ::
          (prettyItems depth (next :: printed) ++
            (newLine closing ++ ']' :: rest)) := by
        rw [htext, prettyItems]
        · simp only [List.append_assoc, List.cons_append]
          rw [skipSpace_newLine, skipSpace_prettyChars]
        · simp
      cases fuel with
      | zero => simp [items] at h
      | succ fuel =>
          obtain ⟨value, behind, hvalue, h⟩ := items_succ h
          obtain ⟨hecho, hleaves⟩ := hitem position _ _ _ _ _
            (endsNumeral_comma _) hsplit hvalue
          rcases h with ⟨more, values, hskip, hmore, rfl⟩ | ⟨hskip, -⟩
          · obtain ⟨-, rfl⟩ := eq_of_comma hleaves (by decide) hskip
            obtain ⟨hechoes, hleft⟩ := ih hprinted rfl hmore
            exact ⟨.cons hecho hechoes, hleft⟩
          · have hend := (eq_of_comma hleaves (by decide) hskip).1
            exact absurd hend (by decide)

theorem fields_echo {content : String → ValueReader} (depth closing : Nat)
    {field : String × Json} {printed : List (String × Json)}
    (hechoing : ∀ other ∈ field :: printed, ∀ name,
      other.2.Echoing (content name))
    {fuel : Nat} {text rest left : List Char} {found : List (String × Json)}
    (htext : skipSpace text = skipSpace
      (prettyFields depth (field :: printed) ++
        (newLine closing ++ '}' :: rest)))
    (h : fields content fuel text = some (found, left)) :
    EchoFields (field :: printed) found ∧ left = rest := by
  induction printed generalizing field fuel text found with
  | nil =>
      obtain ⟨name, value⟩ := field
      have hsplit : skipSpace text = quote name ++ ':' :: ' ' ::
          (value.prettyChars depth ++ (newLine closing ++ '}' :: rest)) := by
        rw [htext, prettyFields]
        simp only [List.append_assoc, List.cons_append]
        rw [skipSpace_newLine]
        rfl
      cases fuel with
      | zero => simp [fields] at h
      | succ fuel =>
          obtain ⟨heard, behind, hheard, h⟩ := fields_succ hsplit h
          obtain ⟨hecho, hleaves⟩ := hechoing _ List.mem_cons_self name _ _ _ _
            _ (endsNumeral_newLine _ _)
            (skipSpace_space_prettyChars value depth _) hheard
          rcases h with ⟨more, values, hskip, -, -⟩ | ⟨hskip, rfl⟩
          · have hend := (eq_of_closing rfl hleaves (by decide) hskip).1
            exact absurd hend (by decide)
          · exact ⟨.cons hecho echoFields_nil,
              (eq_of_closing rfl hleaves (by decide) hskip).2⟩
  | cons next printed ih =>
      obtain ⟨name, value⟩ := field
      obtain ⟨hfield, hprinted⟩ := List.forall_mem_cons.mp hechoing
      have hsplit : skipSpace text = quote name ++ ':' :: ' ' ::
          (value.prettyChars depth ++ ',' ::
            (prettyFields depth (next :: printed) ++
              (newLine closing ++ '}' :: rest))) := by
        rw [htext, prettyFields]
        · simp only [List.append_assoc, List.cons_append]
          rw [skipSpace_newLine]
          rfl
        · simp
      cases fuel with
      | zero => simp [fields] at h
      | succ fuel =>
          obtain ⟨heard, behind, hheard, h⟩ := fields_succ hsplit h
          obtain ⟨hecho, hleaves⟩ := hfield name _ _ _ _ _
            (endsNumeral_comma _) (skipSpace_space_prettyChars value depth _)
            hheard
          rcases h with ⟨more, values, hskip, hmore, rfl⟩ | ⟨hskip, -⟩
          · obtain ⟨-, rfl⟩ := eq_of_comma hleaves (by decide) hskip
            obtain ⟨hechoes, hleft⟩ := ih hprinted rfl hmore
            exact ⟨.cons hecho hechoes, hleft⟩
          · have hend := (eq_of_comma hleaves (by decide) hskip).1
            exact absurd hend (by decide)

/-! ## Documents -/

theorem value?_of_numeral {limit : Nat} {shape : Shape} {text more : List Char}
    {c : Char} (htext : skipSpace text = c :: more)
    (hc : isNumeral c = true) :
    value? limit shape text = number? (c :: more) := by
  rw [value?, htext]
  split
  case h_7 => rfl
  all_goals
    obtain ⟨rfl, -⟩ := List.cons.inj ‹_›
    cases hc

theorem number_echoing (value : Number) (limit : Nat) (shape : Shape) :
    (number value).Echoing (value? limit shape) := by
  intro depth text rest found left hrest htext h
  rw [prettyChars] at htext
  rcases numberText_cases value with hnull | ⟨c, more, hnumber, hnumeral⟩
  · rw [value?, htext, hnull] at h
    obtain ⟨rfl, rfl⟩ := Prod.ext_iff.mp
      (Option.some.inj ((word?_append "null" null rest).symm.trans h))
    exact ⟨.lost _, leaves_refl rest⟩
  · rw [hnumber, List.cons_append] at htext
    rw [value?_of_numeral htext (List.forall_mem_cons.mp hnumeral).1,
      number?_eq] at h
    obtain ⟨⟨literal, behind⟩, hliteral, h⟩ := Option.bind_eq_some_iff.mp h
    obtain ⟨heard, -, heq⟩ := Option.map_eq_some_iff.mp h
    obtain ⟨rfl, rfl⟩ := Prod.ext_iff.mp heq
    exact ⟨.number value heard,
      leaves_of_signedLiteral hnumeral hrest hliteral⟩

theorem array_echoing {items : List Json}
    (hechoing : ∀ other ∈ items, ∀ limit shape,
      other.Echoing (value? limit shape)) (limit : Nat) (shape : Shape) :
    (array items).Echoing (value? limit shape) := by
  intro depth text rest found left _ htext h
  cases items with
  | nil =>
      rw [value?, htext] at h
      cases limit with
      | zero => simp [prettyChars] at h
      | succ limit =>
          obtain ⟨rfl, rfl⟩ := Prod.ext_iff.mp (Option.some.inj h)
          exact ⟨.array .nil, leaves_refl _⟩
  | cons item items =>
      have hopen : skipSpace text = '[' ::
          (prettyItems (depth + 1) (item :: items) ++
            (newLine depth ++ ']' :: rest)) := by
        rw [htext]
        simp [prettyChars]
      obtain ⟨c, more, hinner, hc⟩ := skipSpace_prettyItems (depth + 1)
        item items (newLine depth ++ ']' :: rest)
      rw [value?, hopen] at h
      cases limit with
      | zero => simp at h
      | succ limit =>
          simp only [hinner] at h
          split at h
          next heq => exact absurd (List.cons.inj heq).1 hc
          next =>
            obtain ⟨⟨values, last⟩, hvalues, heq⟩ :=
              Option.map_eq_some_iff.mp h
            obtain ⟨rfl, rfl⟩ := Prod.ext_iff.mp heq
            obtain ⟨hechoes, rfl⟩ := items_echo (depth + 1) depth
              (fun other hother position => hechoing other hother limit _) rfl
              hvalues
            exact ⟨.array hechoes, leaves_refl _⟩

theorem object_echoing {fields : List (String × Json)}
    (hechoing : ∀ other ∈ fields, ∀ limit shape,
      other.2.Echoing (value? limit shape)) (limit : Nat) (shape : Shape) :
    (object fields).Echoing (value? limit shape) := by
  intro depth text rest found left _ htext h
  cases fields with
  | nil =>
      rw [value?, htext] at h
      cases limit with
      | zero => simp [prettyChars] at h
      | succ limit =>
          obtain ⟨rfl, rfl⟩ := Prod.ext_iff.mp (Option.some.inj h)
          exact ⟨.object rfl .nil, leaves_refl _⟩
  | cons field fields =>
      have hopen : skipSpace text = '{' ::
          (prettyFields (depth + 1) (field :: fields) ++
            (newLine depth ++ '}' :: rest)) := by
        rw [htext]
        simp [prettyChars]
      obtain ⟨more, hinner⟩ := skipSpace_prettyFields (depth + 1) field
        fields (newLine depth ++ '}' :: rest)
      rw [value?, hopen] at h
      cases limit with
      | zero => simp at h
      | succ limit =>
          simp only [hinner] at h
          split at h
          next heq => exact absurd (List.cons.inj heq).1 (by decide)
          next =>
            obtain ⟨⟨values, last⟩, hvalues, heq⟩ :=
              Option.map_eq_some_iff.mp h
            obtain ⟨rfl, rfl⟩ := Prod.ext_iff.mp heq
            obtain ⟨hechoes, rfl⟩ := fields_echo (depth + 1) depth
              (fun other hother name => by
                -- A field that nobody wants is passed over.
                split
                · exact hechoing other hother limit _
                · exact echoing_passOver other.2) rfl hvalues
            exact ⟨.object hechoes.names hechoes.values, leaves_refl _⟩

/-- What is read of a printed document is an echo of it, whatever is wanted of
it and however deep it may be nested. -/
theorem echoing_value? (document : Json) (limit : Nat) (shape : Shape) :
    document.Echoing (value? limit shape) := by
  induction document generalizing limit shape with
  | null =>
      intro depth text rest found left _ htext h
      rw [value?, htext] at h
      obtain ⟨rfl, rfl⟩ := Prod.ext_iff.mp
        (Option.some.inj ((word?_append "null" null rest).symm.trans h))
      exact ⟨.lost _, leaves_refl rest⟩
  | bool value =>
      intro depth text rest found left _ htext h
      rw [value?, htext] at h
      have hword : some (bool value, rest) = some (found, left) := by
        cases value with
        | false => exact (word?_append "false" (bool false) rest).symm.trans h
        | true => exact (word?_append "true" (bool true) rest).symm.trans h
      obtain ⟨rfl, rfl⟩ := Prod.ext_iff.mp (Option.some.inj hword)
      exact ⟨.bool value, leaves_refl rest⟩
  | string value =>
      intro depth text rest found left _ htext h
      have hquote : (string value).prettyChars depth ++ rest =
          '"' :: (value.toList.flatMap escape ++ '"' :: rest) := by
        simp [prettyChars, quote]
      rw [value?, htext, hquote] at h
      simp only [quoted_quote, Option.map_some, String.ofList_toList] at h
      obtain ⟨rfl, rfl⟩ := Prod.ext_iff.mp (Option.some.inj h)
      exact ⟨.string value, leaves_refl rest⟩
  | number value => exact number_echoing value limit shape
  | array items ih => exact array_echoing ih limit shape
  | object fields ih => exact object_echoing ih limit shape

/-- What the text of a document is parsed to, if it is, is an echo of it. -/
theorem echoes_of_parse? {document found : Json} {shape : Shape}
    (h : parse? shape document.pretty = some found) :
    Echoes document found := by
  have hskip : skipSpace (document.prettyChars 0) =
      document.prettyChars 0 ++ [] := by
    rw [← skipSpace_prettyChars, List.append_nil]
  rw [parse?, pretty, String.toList_ofList] at h
  obtain ⟨⟨value, left⟩, hvalue, h⟩ := Option.bind_eq_some_iff.mp h
  dsimp only at h
  split at h
  · obtain rfl := Option.some.inj h
    exact (echoing_value? document nestingLimit shape 0 _ [] _ _
      endsNumeral_nil hskip hvalue).1
  · simp at h

end SkillEngine.Json
