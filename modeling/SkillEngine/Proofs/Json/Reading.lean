import SkillEngine.Proofs.Json.Layout
import SkillEngine.Proofs.Json.Printed

/-!
# Reading what was printed

The reader of documents finds an indented document at the front of any text,
for every limit to nesting: it gives the document when the limit admits it, and
nothing when it does not.  The recursion of the reader is on the limit and the
induction here is on the document, so the loops over items and fields have
lemmas of their own in which the limit is fixed.
-/

namespace SkillEngine.Json

/-! ## Quoted texts -/

theorem quoted_step {state : QuoteState} {c : Char} (next : QuoteState)
    (complete : List Char) (hopen : ¬(state = .plain ∧ c = '"'))
    (hstep : quoteStep state c = some (next, complete)) (rest : List Char) :
    quoted state (c :: rest) =
      (quoted next rest).map fun found => (complete ++ found.1, found.2) := by
  conv_lhs => unfold quoted
  split
  · exact absurd ⟨rfl, rfl⟩ hopen
  · simp only [hstep, Option.bind_eq_bind, Option.bind_some]
    cases hrest : quoted next rest <;> simp

theorem quoted_plain {c : Char} (hquote : c ≠ '"') (hbackslash : c ≠ '\\')
    (hcontrol : ¬c < ' ') (rest : List Char) :
    quoted .plain (c :: rest) =
      (quoted .plain rest).map fun found => (c :: found.1, found.2) :=
  quoted_step .plain [c] (fun h => hquote h.2)
    (by simp [quoteStep, hbackslash, hcontrol]) rest

theorem quoted_letter {letter c : Char} (hletter : letter ≠ 'u')
    (hmeant : letterEscape? letter = some c) (rest : List Char) :
    quoted .plain ('\\' :: letter :: rest) =
      (quoted .plain rest).map fun found => (c :: found.1, found.2) := by
  rw [quoted_step .escaped [] (by simp) rfl,
    quoted_step .plain [c] (by simp)
      (by simp [quoteStep, hletter, hmeant])]
  cases quoted .plain rest <;> rfl

/-- A control character is written with four digits, of which two are zero. -/
theorem quoted_control {code : Nat} (hcode : code < 32) (rest : List Char) :
    quoted .plain (['\\', 'u', '0', '0', Text.hexDigit (code / 16),
        Text.hexDigit (code % 16)] ++ rest) =
      (quoted .plain rest).map fun found =>
        (Char.ofNat code :: found.1, found.2) := by
  have hdigits : ∀ code < 32,
      (Text.hexValue? (Text.hexDigit (code / 16)) = some (code / 16) ∧
        Text.hexValue? (Text.hexDigit (code % 16)) = some (code % 16)) ∧
      isHighUnit code = false ∧ isLowUnit code = false := by decide
  obtain ⟨⟨hhigh, hlow⟩, hnoHigh, hnoLow⟩ := hdigits code hcode
  have hcode' : code / 16 * 16 + code % 16 = code := by omega
  simp only [List.cons_append, List.nil_append]
  rw [quoted_step .escaped [] (by simp) rfl,
    quoted_step (.digits none 4 0) [] (by simp) rfl,
    quoted_step (.digits none 3 0) [] (by simp) rfl,
    quoted_step (.digits none 2 0) [] (by simp) rfl,
    quoted_step (.digits none 1 (code / 16)) [] (by simp)
      (by simp [quoteStep, hhigh]),
    quoted_step .plain [Char.ofNat code] (by simp)
      (by simp [quoteStep, hlow, hcode', endUnit, hnoHigh, hnoLow])]
  cases quoted .plain rest <;> rfl

/-- The character that was escaped is read. -/
theorem quoted_escape (c : Char) (rest : List Char) :
    quoted .plain (escape c ++ rest) =
      (quoted .plain rest).map fun found => (c :: found.1, found.2) := by
  rw [escape]
  iterate 7
    split
    next h =>
      subst h
      exact quoted_letter (by decide) rfl rest
  split
  next hcontrol =>
    have hcode : c.toNat < 32 := hcontrol
    rw [quoted_control hcode, Char.ofNat_toNat]
  next hquote hbackslash _ _ _ _ _ hcontrol =>
    exact quoted_plain hquote hbackslash hcontrol rest

theorem quoted_quote (text rest : List Char) :
    quoted .plain (text.flatMap escape ++ '"' :: rest) = some (text, rest) := by
  induction text with
  | nil => rfl
  | cons c text ih =>
      rw [List.flatMap_cons, List.append_assoc, quoted_escape, ih]
      rfl

/-! ## Numbers -/

/-- The text of a number is the word null or is read as what it stands for. -/
theorem numberText_readsBack {value : Number} (hback : value.ReadsBack) :
    (numberText value = "null".toList ∧ rereadNumber value = null) ∨
      number? (numberText value) = some (rereadNumber value, []) := by
  cases value with
  | integer value => exact .inr (number?_intText hback)
  | single value =>
      by_cases hfinite : value.isFinite = true
      · obtain ⟨found, hfound, hnearest⟩ := hback hfinite
        have : foundFor value = found := by
          simp [foundFor, hfound, hnearest]
        exact .inr (by simp [rereadNumber, hfinite, this, hfound])
      · exact .inl (by simp [numberText, rereadNumber, hfinite])
  | double value =>
      by_cases hfinite : value.isFinite = true
      · exact .inr (by simp [rereadNumber, hfinite, hback hfinite])
      · exact .inl (by simp [numberText, rereadNumber, hfinite])

/-! ## Shapes that want all of a document -/

/-- A shape that wants all of a document: no field of it is passed over. -/
inductive Shape.Covers : Shape → Json → Prop
  | null {shape : Shape} : Covers shape null
  | bool {shape : Shape} (value : Bool) : Covers shape (bool value)
  | number {shape : Shape} (value : Number) : Covers shape (number value)
  | string {shape : Shape} (value : String) : Covers shape (string value)
  | array {shape : Shape} {items : List Json}
      (hitems : ∀ index item, items[index]? = some item →
        Covers (shape.item index) item) :
      Covers shape (array items)
  | object {shape : Shape} {fields : List (String × Json)}
      (hnamed : ∀ entry ∈ fields, (shape.field? entry.1).isSome)
      (hfields : ∀ entry ∈ fields, ∀ wanted,
        shape.field? entry.1 = some wanted → Covers wanted entry.2) :
      Covers shape (object fields)

theorem Shape.whole_covers (document : Json) : whole.Covers document := by
  induction document with
  | null => exact .null
  | bool value => exact .bool value
  | number value => exact .number value
  | string value => exact .string value
  | array items ih =>
      exact .array fun index item hitem => ih item (List.mem_of_getElem? hitem)
  | object fields ih =>
      refine .object (fun entry hentry => rfl) fun entry hentry wanted hwanted => ?_
      obtain rfl : whole = wanted := Option.some.inj hwanted
      exact ih entry hentry

/-! ## The loops over items and fields -/

/-- A value that is given when a limit admits the nesting of its text. -/
def admitted {α : Type} (limit depth : Nat) (value : α) : Option α :=
  if depth ≤ limit then some value else none

theorem admitted_of_le {α : Type} {limit depth : Nat} (h : depth ≤ limit)
    (value : α) : admitted limit depth value = some value :=
  if_pos h

theorem admitted_of_lt {α : Type} {limit depth : Nat} (h : limit < depth)
    (value : α) : admitted limit depth value = none :=
  if_neg (Nat.not_le.mpr h)

/-- A reader that gives a document back from its text when the limit admits
it, and gives nothing otherwise. -/
def ReadsPrinted (limit : Nat) (document : Json) (reader : ValueReader) : Prop :=
  ∀ depth text rest, EndsNumber rest →
    skipSpace text = document.prettyChars depth ++ rest →
    reader text = admitted limit document.depth (document.reread, rest)

theorem endsNumber_newLine (depth : Nat) (rest : List Char) :
    EndsNumber (newLine depth ++ rest) :=
  endsNumber_cons _ (by decide)

section Items

variable {reader : Nat → ValueReader} {position fuel limit depth : Nat}
  {text behind rest : List Char} {value : Json}

/-- The last item. -/
theorem items_close
    (h : reader position text = admitted limit depth (value, behind))
    (hclose : skipSpace behind = ']' :: rest) :
    items reader position (fuel + 1) text =
      admitted limit depth ([value], rest) := by
  rw [items, h]
  rcases Nat.lt_or_ge limit depth with hdepth | hdepth
  · rw [admitted_of_lt hdepth, admitted_of_lt hdepth]
    rfl
  · rw [admitted_of_le hdepth, admitted_of_le hdepth]
    simp [hclose]

/-- An item before others. -/
theorem items_comma {values : List Json} {more : Nat}
    (h : reader position text = admitted limit depth (value, ',' :: behind))
    (hmore : items reader (position + 1) fuel behind =
      admitted limit more (values, rest)) :
    items reader position (fuel + 1) text =
      admitted limit (max depth more) (value :: values, rest) := by
  have hcomma : skipSpace (',' :: behind) = ',' :: behind := rfl
  rw [items, h]
  rcases Nat.lt_or_ge limit depth with hdepth | hdepth
  · rw [admitted_of_lt hdepth, admitted_of_lt (lt_max_of_lt_left hdepth)]
    rfl
  rw [admitted_of_le hdepth]
  simp only [Option.bind_eq_bind, Option.bind_some, hcomma, hmore]
  rcases Nat.lt_or_ge limit more with hmoreDepth | hmoreDepth
  · rw [admitted_of_lt hmoreDepth,
      admitted_of_lt (lt_max_of_lt_right hmoreDepth)]
    rfl
  · rw [admitted_of_le hmoreDepth,
      admitted_of_le (max_le hdepth hmoreDepth)]
    rfl

theorem items_prettyItems (reader : Nat → ValueReader) (position fuel : Nat)
    (limit depth closing : Nat) (rest : List Char)
    {printed : List Json} (hne : printed ≠ []) (hfuel : printed.length ≤ fuel)
    (hreads : ∀ index item, printed[index]? = some item →
      ReadsPrinted limit item (reader (position + index))) :
    items reader position fuel
        (prettyItems depth printed ++ (newLine closing ++ ']' :: rest)) =
      admitted limit (depthOfItems printed) (rereadItems printed, rest) := by
  induction printed generalizing position fuel with
  | nil => exact absurd rfl hne
  | cons item more ih =>
      obtain ⟨fuel, rfl⟩ : ∃ left, fuel = left + 1 :=
        ⟨fuel - 1, by simp at hfuel; omega⟩
      have hitem := hreads 0 item rfl
      have hskip : ∀ behind, skipSpace
          (newLine depth ++ item.prettyChars depth ++ behind) =
            item.prettyChars depth ++ behind := by
        intro behind
        rw [List.append_assoc, skipSpace_newLine, skipSpace_prettyChars]
      cases more with
      | nil =>
          have hread := hitem depth _ _ (endsNumber_newLine closing (']' :: rest))
            (hskip _)
          rw [prettyItems, depthOfItems, depthOfItems, Nat.max_zero]
          exact items_close hread (skipSpace_newLine _ _)
      | cons next more =>
          have hread := hitem depth _ _
            (endsNumber_cons (prettyItems depth (next :: more) ++
              (newLine closing ++ ']' :: rest)) (c := ',') (by decide)) (hskip _)
          have htail := ih (position + 1) fuel (by simp)
            (by simpa using hfuel)
            (fun index other hother => by
              rw [Nat.add_right_comm]
              exact hreads (index + 1) other hother)
          have htext : prettyItems depth (item :: next :: more) ++
              (newLine closing ++ ']' :: rest) =
              newLine depth ++ item.prettyChars depth ++
                ',' :: (prettyItems depth (next :: more) ++
                  (newLine closing ++ ']' :: rest)) := by
            simp [prettyItems]
          rw [htext]
          exact items_comma hread htail

end Items

section Fields

variable {content : String → ValueReader} {fuel limit depth : Nat}
  {name : String} {text after behind rest : List Char} {value : Json}

/-- A field is read by its name. -/
theorem fields_named (htext : skipSpace text = quote name ++ ':' :: after) :
    fields content (fuel + 1) text = (content name after).bind fun found =>
      match skipSpace found.2 with
      | ',' :: rest => (fields content fuel rest).map fun more =>
          ((name, found.1) :: more.1, more.2)
      | '}' :: rest => some ([(name, found.1)], rest)
      | _ => none := by
  have hquote : quote name ++ ':' :: after =
      '"' :: (name.toList.flatMap escape ++ '"' :: ':' :: after) := by
    simp [quote]
  have hcolon : skipSpace (':' :: after) = ':' :: after := rfl
  rw [fields, htext, hquote]
  simp only [quoted_quote, Option.bind_eq_bind, Option.bind_some,
    String.ofList_toList, hcolon, Option.map_eq_bind]
  rfl

/-- The last field. -/
theorem fields_close (htext : skipSpace text = quote name ++ ':' :: after)
    (h : content name after = admitted limit depth (value, behind))
    (hclose : skipSpace behind = '}' :: rest) :
    fields content (fuel + 1) text =
      admitted limit depth ([(name, value)], rest) := by
  rw [fields_named htext, h]
  rcases Nat.lt_or_ge limit depth with hdepth | hdepth
  · rw [admitted_of_lt hdepth, admitted_of_lt hdepth]
    rfl
  · rw [admitted_of_le hdepth, admitted_of_le hdepth]
    simp [hclose]

/-- A field before others. -/
theorem fields_comma {values : List (String × Json)} {more : Nat}
    (htext : skipSpace text = quote name ++ ':' :: after)
    (h : content name after = admitted limit depth (value, ',' :: behind))
    (hmore : fields content fuel behind = admitted limit more (values, rest)) :
    fields content (fuel + 1) text =
      admitted limit (max depth more) ((name, value) :: values, rest) := by
  have hcomma : skipSpace (',' :: behind) = ',' :: behind := rfl
  rw [fields_named htext, h]
  rcases Nat.lt_or_ge limit depth with hdepth | hdepth
  · rw [admitted_of_lt hdepth, admitted_of_lt (lt_max_of_lt_left hdepth)]
    rfl
  rw [admitted_of_le hdepth]
  simp only [Option.bind_some, hcomma, hmore]
  rcases Nat.lt_or_ge limit more with hmoreDepth | hmoreDepth
  · rw [admitted_of_lt hmoreDepth,
      admitted_of_lt (lt_max_of_lt_right hmoreDepth)]
    rfl
  · rw [admitted_of_le hmoreDepth,
      admitted_of_le (max_le hdepth hmoreDepth)]
    rfl

theorem fields_prettyFields (content : String → ValueReader) (fuel : Nat)
    (limit depth closing : Nat) (rest : List Char)
    {printed : List (String × Json)} (hne : printed ≠ [])
    (hfuel : printed.length ≤ fuel)
    (hreads : ∀ entry ∈ printed, ReadsPrinted limit entry.2 (content entry.1)) :
    fields content fuel
        (prettyFields depth printed ++ (newLine closing ++ '}' :: rest)) =
      admitted limit (depthOfFields printed) (rereadFields printed, rest) := by
  induction printed generalizing fuel with
  | nil => exact absurd rfl hne
  | cons entry more ih =>
      obtain ⟨name, value⟩ := entry
      obtain ⟨fuel, rfl⟩ : ∃ left, fuel = left + 1 :=
        ⟨fuel - 1, by simp at hfuel; omega⟩
      have hvalue := hreads (name, value) List.mem_cons_self
      have hname : ∀ behind, skipSpace
          (newLine depth ++ quote name ++ ':' :: ' ' :: behind) =
            quote name ++ ':' :: ' ' :: behind := by
        intro behind
        rw [List.append_assoc, skipSpace_newLine]
        rfl
      have hskip : ∀ behind, skipSpace
          (' ' :: (value.prettyChars depth ++ behind)) =
            value.prettyChars depth ++ behind := fun behind =>
        skipSpace_prettyChars value depth behind
      cases more with
      | nil =>
          have hread := hvalue depth _ _
            (endsNumber_newLine closing ('}' :: rest)) (hskip _)
          have htext : prettyFields depth [(name, value)] ++
              (newLine closing ++ '}' :: rest) =
              newLine depth ++ quote name ++ ':' :: ' ' ::
                (value.prettyChars depth ++ (newLine closing ++ '}' :: rest)) := by
            simp [prettyFields]
          rw [htext, depthOfFields, depthOfFields, Nat.max_zero]
          exact fields_close (hname _) hread (skipSpace_newLine _ _)
      | cons next more =>
          have hread := hvalue depth _ _
            (endsNumber_cons (prettyFields depth (next :: more) ++
              (newLine closing ++ '}' :: rest)) (c := ',') (by decide)) (hskip _)
          have htail := ih fuel (by simp) (by simpa using hfuel)
            (fun other hother => hreads other (List.mem_cons_of_mem _ hother))
          have htext : prettyFields depth ((name, value) :: next :: more) ++
              (newLine closing ++ '}' :: rest) =
              newLine depth ++ quote name ++ ':' :: ' ' ::
                (value.prettyChars depth ++ ',' ::
                  (prettyFields depth (next :: more) ++
                    (newLine closing ++ '}' :: rest))) := by
            simp [prettyFields]
          rw [htext]
          exact fields_comma (hname _) hread htail

end Fields

/-! ## Documents -/

theorem length_le_prettyItems (depth : Nat) (items : List Json)
    (rest : List Char) :
    items.length ≤ (prettyItems depth items ++ rest).length := by
  induction items with
  | nil => simp
  | cons item items ih =>
      cases items with
      | nil => simp [prettyItems, newLine]
      | cons next items =>
          simp only [prettyItems, newLine, List.length_append,
            List.length_cons] at ih ⊢
          omega

theorem length_le_prettyFields (depth : Nat) (fields : List (String × Json))
    (rest : List Char) :
    fields.length ≤ (prettyFields depth fields ++ rest).length := by
  induction fields with
  | nil => simp
  | cons entry fields ih =>
      cases fields with
      | nil => simp [prettyFields, newLine]
      | cons next fields =>
          simp only [prettyFields, newLine, List.length_append,
            List.length_cons] at ih ⊢
          omega

theorem word?_append (word : String) (value : Json) (rest : List Char) :
    word? word value (word.toList ++ rest) = some (value, rest) := by
  have hprefix : word.toList.isPrefixOf (word.toList ++ rest) = true := by simp
  rw [word?, if_pos hprefix, ← String.length_toList, List.drop_left]

theorem value?_of_number {limit : Nat} {shape : Shape} {text more : List Char}
    {c : Char} (htext : skipSpace text = c :: more)
    (hfirst : c = '-' ∨ c.isDigit = true) :
    value? limit shape text = number? (c :: more) := by
  rw [value?, htext]
  split
  case h_7 => rfl
  all_goals
    obtain ⟨rfl, -⟩ := List.cons.inj ‹_›
    exact absurd hfirst (by decide)

theorem value?_array {shape : Shape} {printed : List Json} (limit depth : Nat)
    {text rest : List Char}
    (hreads : ∀ index item, printed[index]? = some item →
      ReadsPrinted limit item (value? limit (shape.item index)))
    (htext : skipSpace text = (array printed).prettyChars depth ++ rest) :
    value? (limit + 1) shape text =
      admitted (limit + 1) (array printed).depth
        ((array printed).reread, rest) := by
  cases printed with
  | nil =>
      rw [value?, htext, admitted_of_le (by simp [Json.depth, depthOfItems])]
      rfl
  | cons item more =>
      obtain ⟨c, behind, hskip, hclose⟩ := skipSpace_prettyItems (depth + 1)
        item more (newLine depth ++ ']' :: rest)
      have hfuel := length_le_prettyItems (depth + 1) (item :: more)
        (newLine depth ++ ']' :: rest)
      have hopen : skipSpace text = '[' ::
          (prettyItems (depth + 1) (item :: more) ++
            (newLine depth ++ ']' :: rest)) := by
        rw [htext]
        simp [prettyChars]
      rw [value?, hopen]
      simp only [hskip, admitted, Json.depth, Nat.add_le_add_iff_right, reread]
      split
      next heq => exact absurd (List.cons.inj heq).1 hclose
      next =>
        rw [items_prettyItems _ 0 _ limit (depth + 1) depth rest
          (List.cons_ne_nil item more) hfuel, admitted]
        · split <;> rfl
        · intro index item hitem
          rw [Nat.zero_add]
          exact hreads index item hitem

theorem value?_object {shape : Shape} {printed : List (String × Json)}
    (limit depth : Nat) {text rest : List Char}
    (hreads : ∀ entry ∈ printed, ∃ wanted,
      shape.field? entry.1 = some wanted ∧
        ReadsPrinted limit entry.2 (value? limit wanted))
    (htext : skipSpace text = (object printed).prettyChars depth ++ rest) :
    value? (limit + 1) shape text =
      admitted (limit + 1) (object printed).depth
        ((object printed).reread, rest) := by
  cases printed with
  | nil =>
      rw [value?, htext, admitted_of_le (by simp [Json.depth, depthOfFields])]
      rfl
  | cons entry more =>
      obtain ⟨behind, hskip⟩ := skipSpace_prettyFields (depth + 1) entry more
        (newLine depth ++ '}' :: rest)
      have hfuel := length_le_prettyFields (depth + 1) (entry :: more)
        (newLine depth ++ '}' :: rest)
      have hopen : skipSpace text = '{' ::
          (prettyFields (depth + 1) (entry :: more) ++
            (newLine depth ++ '}' :: rest)) := by
        rw [htext]
        simp [prettyChars]
      rw [value?, hopen]
      simp only [hskip, admitted, Json.depth, Nat.add_le_add_iff_right, reread]
      split
      next heq => exact absurd (List.cons.inj heq).1 (by decide)
      next =>
        rw [fields_prettyFields _ _ limit (depth + 1) depth rest
          (List.cons_ne_nil entry more) hfuel, admitted]
        · split <;> rfl
        · intro entry hentry
          obtain ⟨wanted, hwanted, hreads⟩ := hreads entry hentry
          simp only [hwanted]
          exact hreads

/-- A number that is not finite is printed as null, and comes back as null. -/
theorem value?_number {value : Number} (hback : value.ReadsBack) (limit : Nat)
    (shape : Shape) : ReadsPrinted limit (number value) (value? limit shape) := by
  intro depth text rest hends htext
  rw [Json.depth, admitted_of_le (Nat.zero_le limit), reread]
  rw [prettyChars] at htext
  rcases numberText_readsBack hback with ⟨hnull, hlost⟩ | hfound
  · rw [value?, htext, hnull, hlost]
    exact word?_append "null" null rest
  · obtain ⟨c, more, hhead, hfirst⟩ := head_of_number? hfound
    have hread := number?_append hends hfound
    rw [hhead, List.cons_append] at htext hread
    rw [value?_of_number htext hfirst, hread, List.nil_append]

/-- The reader gives a printed document back when its shape wants all of it
and the limit admits it. -/
theorem value?_readsPrinted {document : Json}
    (hback : ∀ number ∈ document.numbers, number.ReadsBack) {shape : Shape}
    (hcovers : shape.Covers document) (limit : Nat) :
    ReadsPrinted limit document (value? limit shape) := by
  induction document generalizing shape limit with
  | null =>
      intro depth text rest hends htext
      rw [value?, htext, Json.depth, admitted_of_le (Nat.zero_le limit)]
      exact word?_append "null" null rest
  | bool value =>
      intro depth text rest hends htext
      rw [value?, htext, Json.depth, admitted_of_le (Nat.zero_le limit)]
      cases value with
      | false => exact word?_append "false" (bool false) rest
      | true => exact word?_append "true" (bool true) rest
  | string value =>
      intro depth text rest hends htext
      have hquote : quote value ++ rest =
          '"' :: (value.toList.flatMap escape ++ '"' :: rest) := by
        simp [quote]
      rw [value?, htext, prettyChars, hquote]
      simp [quoted_quote, admitted, Json.depth, reread]
  | number value => exact value?_number (hback value (by simp [numbers])) limit shape
  | array items ih =>
      intro depth text rest hends htext
      cases hcovers with
      | array hitems =>
          have hitemsBack : ∀ item ∈ items, ∀ number ∈ item.numbers,
              number.ReadsBack := fun item hitem number hnumber =>
            hback number (numbersOfItems_of_mem hitem hnumber)
          cases limit with
          | zero =>
              -- No bracket may open any more, and the array is one deep.
              rw [value?, htext, admitted_of_lt (by simp [Json.depth])]
              cases items <;> rfl
          | succ limit =>
              refine value?_array limit depth ?_ htext
              intro index item hitem
              have hmem := List.mem_of_getElem? hitem
              exact ih item hmem (hitemsBack item hmem)
                (hitems index item hitem) limit
  | object fields ih =>
      intro depth text rest hends htext
      cases hcovers with
      | object hnamed hfields =>
          have hfieldsBack : ∀ entry ∈ fields, ∀ number ∈ entry.2.numbers,
              number.ReadsBack := fun entry hentry number hnumber =>
            hback number (numbersOfFields_of_mem hentry hnumber)
          cases limit with
          | zero =>
              rw [value?, htext, admitted_of_lt (by simp [Json.depth])]
              cases fields <;> rfl
          | succ limit =>
              refine value?_object limit depth ?_ htext
              intro entry hentry
              obtain ⟨wanted, hwanted⟩ :=
                Option.isSome_iff_exists.mp (hnamed entry hentry)
              exact ⟨wanted, hwanted, ih entry hentry (hfieldsBack entry hentry)
                (hfields entry hentry wanted hwanted) limit⟩

/-- Parsing the indented text of a document gives the document but for its
numbers, as long as it is nested no deeper than the reader allows. -/
theorem parse?_pretty {document : Json}
    (hback : ∀ number ∈ document.numbers, number.ReadsBack) {shape : Shape}
    (hcovers : shape.Covers document) :
    parse? shape document.pretty =
      if document.depth ≤ nestingLimit then some document.reread else none := by
  have hskip : skipSpace (document.prettyChars 0) =
      document.prettyChars 0 ++ [] := by
    rw [← skipSpace_prettyChars, List.append_nil]
  have hread := value?_readsPrinted hback hcovers nestingLimit 0 _ []
    (fun c hc => by simp at hc) hskip
  rw [parse?, pretty, String.toList_ofList, hread, admitted]
  split <;> rfl

end SkillEngine.Json
