import QueryBook.Proofs.TomlStrings
import QueryBook.Toml.Reader

/-!
# Written TOML lines

Written values are read back behind their keys, and a written line is read in front of any others.
So the document of a text that is put together from lines is found line by line.
-/

namespace QueryBook.Toml

variable {text rest : List Char} {fuel : Nat}

/-! ## Starts -/

/-- Whether a text begins with no blank, no line break and no comment. -/
def StartsSolid (text : List Char) : Prop := ∀ c ∈ text.head?, c ∉ [' ', '\t', '\n', '\r', '#']

theorem StartsSolid.skipWhite (h : StartsSolid text) : skipWhite text = text := by
  cases text with
  | nil => rfl
  | cons c text =>
    have hc := h c rfl
    rw [Toml.skipWhite, List.dropWhile_cons, if_neg]
    simp_all [isWhite]

theorem StartsSolid.lineBreak? (h : StartsSolid text) : lineBreak? text = none := by
  rw [lineBreak?.eq_def]
  split
  · exact absurd (h _ rfl) (by decide)
  · exact absurd (h _ rfl) (by decide)
  · rfl

/-- There is nothing to skip. -/
theorem StartsSolid.skipFiller? (h : StartsSolid text) :
    skipFiller? (fuel + 1) text = some text := by
  rw [Toml.skipFiller?, h.skipWhite]
  split
  · exact absurd (h _ rfl) (by decide)
  · rw [h.lineBreak?]

/-- Behind a line break and the blanks at the start of the next line there is nothing more to
skip. -/
theorem StartsSolid.skipFiller?_indented (h : StartsSolid text) (hfuel : 2 ≤ fuel) :
    Toml.skipFiller? fuel ("\n    ".toList ++ text) = some text := by
  obtain ⟨fuel, rfl⟩ := Nat.exists_eq_add_of_le' hfuel
  have hindent : Toml.skipFiller? (fuel + 2) ("\n    ".toList ++ text) =
    Toml.skipFiller? (fuel + 1) ("    ".toList ++ text) := rfl
  rw [hindent, Toml.skipFiller?]
  have hwhite : Toml.skipWhite ("    ".toList ++ text) = Toml.skipWhite text := rfl
  rw [hwhite, h.skipWhite]
  split
  · exact absurd (h _ rfl) (by decide)
  · rw [h.lineBreak?]

/-! ## Values -/

/-- Whether a text is a value wherever the line may end, or an array go on, behind it. -/
structure IsWritten (depth : Nat) (written : List Char) (value : Value) : Prop where
  starts : ∀ rest, StartsSolid (written ++ rest)
  value? : ∀ fuel rest, written.length ≤ fuel → StartsUnquoted rest →
    value? fuel depth (written ++ rest) = some (value, rest)

/-- A written string begins with a quote. -/
theorem exists_writeString (value : String) :
    ∃ quote more, (writeString value).toList = quote :: more ∧ (quote = '"' ∨ quote = '\'') := by
  unfold writeString
  rw [String.toList_ofList]
  split
  · exact ⟨'"', _, rfl, .inl rfl⟩
  · exact ⟨'\'', _, rfl, .inr rfl⟩
  · exact ⟨'"', _, rfl, .inl rfl⟩
  · exact ⟨'\'', _, rfl, .inr rfl⟩

theorem isWritten_string (depth : Nat) (value : String) :
    IsWritten depth (writeString value).toList (.string value) := by
  obtain ⟨quote, more, hwritten, hquote⟩ := exists_writeString value
  refine ⟨fun rest c hc => ?_, fun fuel rest hfuel hrest => ?_⟩
  · rw [hwritten, List.cons_append, List.head?_cons, Option.mem_some] at hc
    rcases hquote with rfl | rfl <;> rw [← hc] <;> decide
  · have hread := string?_writeString value hrest
    rw [hwritten] at hread hfuel ⊢
    obtain ⟨fuel, rfl⟩ := Nat.exists_eq_succ_of_ne_zero (Nat.ne_zero_of_lt hfuel)
    rcases hquote with rfl | rfl <;>
      rw [List.cons_append] at hread ⊢ <;> rw [value?, hread, Option.map_some]

theorem isWritten_boolean (depth : Nat) (value : Bool) :
    IsWritten depth (writeBoolean value).toList (.boolean value) := by
  refine ⟨fun rest c hc => ?_, fun fuel rest hfuel _ => ?_⟩
  · cases value <;> cases hc <;> decide
  · obtain ⟨fuel, rfl⟩ : ∃ more, fuel = more + 1 :=
      Nat.exists_eq_succ_of_ne_zero (by cases value <;> simp [writeBoolean] at hfuel <;> omega)
    cases value <;> rfl

/-! ## Arrays of strings -/

variable {depth : Nat} {value : String}

/-- An item is read, and what is behind it decides whether others follow. -/
theorem items?_string (hrest : StartsUnquoted rest)
    (hfuel : (writeString value).toList.length ≤ fuel)
    (hskip : skipFiller? (text.length + 1) text = some ((writeString value).toList ++ rest)) :
    items? (fuel + 1) depth text =
      (skipFiller? (rest.length + 1) rest).bind fun
        | ',' :: rest => (items? fuel depth rest).map fun (items, rest) =>
            (.string value :: items, rest)
        | ']' :: rest => some ([.string value], rest)
        | _ => none := by
  have hread := (isWritten_string depth value).value? fuel rest hfuel hrest
  obtain ⟨quote, more, hwritten, hquote⟩ := exists_writeString value
  rw [items?, hskip]
  simp only [Option.bind_eq_bind, Option.bind_some]
  split
  · next heq =>
    rw [hwritten, List.cons_append, List.cons.injEq] at heq
    rcases hquote with rfl | rfl <;> cases heq.1
  · rw [hread]
    rfl

/-- The items of an array, each on a line of its own, and its closing bracket. -/
def itemLines : List String → List Char
  | [] => "\n]".toList
  | value :: values => "\n    ".toList ++ ((writeString value).toList ++ ',' :: itemLines values)

/-- **Items are read back**, however many there are. -/
theorem items?_itemLines (values : List String) (hfuel : (itemLines values).length ≤ fuel) :
    items? fuel depth (itemLines values ++ rest) = some (values.map .string, rest) := by
  induction values generalizing fuel with
  | nil =>
    obtain ⟨fuel, rfl⟩ := Nat.exists_eq_succ_of_ne_zero (Nat.ne_zero_of_lt hfuel)
    rfl
  | cons value values ih =>
    rw [itemLines, List.length_append, List.length_append, List.length_cons] at hfuel
    obtain ⟨fuel, rfl⟩ := Nat.exists_eq_succ_of_ne_zero (Nat.ne_zero_of_lt hfuel)
    have hindent : "\n    ".toList.length = 5 := rfl
    have hlater : items? fuel depth (itemLines values ++ rest) = some (values.map .string, rest) :=
      ih (by omega)
    have hsolid := (isWritten_string depth value).starts (',' :: (itemLines values ++ rest))
    have hcomma : StartsSolid (',' :: (itemLines values ++ rest)) := by simp [StartsSolid]
    rw [itemLines, List.append_assoc, List.append_assoc, List.cons_append,
      items?_string (by simp [StartsUnquoted]) (by omega)
        (hsolid.skipFiller?_indented (by rw [List.length_append]; omega)),
      hcomma.skipFiller?, Option.bind_some]
    simp only [hlater, Option.map_some, List.map_cons]

/-- Where lines end with a break, one less stands at the start. -/
theorem itemLines_eq (values : List String) :
    itemLines values = '\n' ::
      ((String.join (values.map fun v => "    " ++ writeString v ++ ",\n")).toList ++ [']']) := by
  induction values with
  | nil => rfl
  | cons value values ih =>
    rw [itemLines, ih, List.map_cons, String.join_cons]
    simp

/-- An array of several strings is written in lines. -/
theorem toList_writeStrings (first second : String) (others : List String) :
    (writeStrings (first :: second :: others)).toList =
      '[' :: itemLines (first :: second :: others) := by
  have hform : writeStrings (first :: second :: others) =
      "[\n" ++ String.join ((first :: second :: others).map fun v =>
        "    " ++ writeString v ++ ",\n") ++ "]" := rfl
  rw [itemLines_eq, hform]
  simp

/-- What stands behind the opening bracket is read as the items, on one line or on several. -/
theorem exists_items (depth : Nat) (values : List String) :
    ∃ items, (writeStrings values).toList = '[' :: items ∧
      ∀ fuel rest, items.length ≤ fuel →
        items? fuel depth (items ++ rest) = some (values.map .string, rest) := by
  -- an array of one item is written on one line, as is the empty one
  match values with
  | [] =>
    refine ⟨[']'], rfl, fun fuel rest hfuel => ?_⟩
    obtain ⟨fuel, rfl⟩ := Nat.exists_eq_succ_of_ne_zero (Nat.ne_zero_of_lt hfuel)
    rfl
  | [value] =>
    refine ⟨(writeString value).toList ++ [']'], by simp [writeStrings], fun fuel rest hfuel => ?_⟩
    rw [List.length_append, List.length_singleton] at hfuel
    obtain ⟨fuel, rfl⟩ := Nat.exists_eq_succ_of_ne_zero (Nat.ne_zero_of_lt hfuel)
    have hsolid := (isWritten_string depth value).starts (']' :: rest)
    have hbracket : StartsSolid (']' :: rest) := by simp [StartsSolid]
    rw [List.append_assoc, List.singleton_append,
      items?_string (by simp [StartsUnquoted]) (by omega) hsolid.skipFiller?,
      hbracket.skipFiller?]
    rfl
  | first :: second :: others =>
    exact ⟨_, toList_writeStrings first second others, fun _ _ => items?_itemLines _⟩

/-- **Arrays of strings are read back.** -/
theorem isWritten_strings (depth : Nat) (values : List String) :
    IsWritten (depth + 1) (writeStrings values).toList (.array (values.map .string)) := by
  obtain ⟨items, hwritten, hitems⟩ := exists_items depth values
  rw [hwritten]
  refine ⟨by simp [StartsSolid], fun fuel rest hfuel _ => ?_⟩
  obtain ⟨fuel, rfl⟩ := Nat.exists_eq_succ_of_ne_zero (Nat.ne_zero_of_lt hfuel)
  rw [List.cons_append, value?, if_neg (Nat.succ_ne_zero depth), Nat.add_sub_cancel,
    hitems fuel rest (Nat.le_of_succ_le_succ hfuel)]
  rfl

/-! ## Keys -/

/-- Whether a key needs no quotes. -/
def IsBareKey (key : String) : Prop := key ≠ "" ∧ key.toList.all isBareKeyChar = true

instance (key : String) : Decidable (IsBareKey key) := inferInstanceAs (Decidable (_ ∧ _))

/-- A bare key begins with no character that would need quotes. -/
theorem head?_ne_of_isBareKey {key : String} {c : Char} (hkey : IsBareKey key)
    (hc : isBareKeyChar c = false) : (key.toList ++ rest).head? ≠ some c := by
  have hne : key.toList ≠ [] := String.toList_eq_nil_iff.not.mpr hkey.1
  obtain ⟨first, text, htext⟩ := List.exists_cons_of_ne_nil hne
  have hfirst : isBareKeyChar first = true :=
    List.all_eq_true.mp hkey.2 first (htext ▸ List.mem_cons_self ..)
  rw [htext, List.cons_append, List.head?_cons, ne_eq, Option.some.injEq]
  rintro rfl
  rw [hfirst] at hc
  cases hc

theorem startsSolid_of_isBareKey {key : String} (hkey : IsBareKey key) :
    StartsSolid (key.toList ++ rest) := by
  intro c hc hmem
  simp only [List.mem_cons, List.not_mem_nil, or_false] at hmem
  rcases hmem with rfl | rfl | rfl | rfl | rfl <;>
    exact head?_ne_of_isBareKey hkey (by decide) hc

/-- A bare key is read as far as it goes. -/
theorem simpleKey?_of_isBareKey {key : String} (hkey : IsBareKey key)
    (hrest : ∀ c ∈ rest.head?, isBareKeyChar c = false) :
    simpleKey? (key.toList ++ rest) = some (key, rest) := by
  obtain ⟨hstop, hgo⟩ : rest.takeWhile isBareKeyChar = [] ∧
      rest.dropWhile isBareKeyChar = rest := by
    cases rest with
    | nil => exact ⟨rfl, rfl⟩
    | cons c rest => simp [hrest c rfl]
  have hname : (key.toList ++ rest).takeWhile isBareKeyChar = key.toList := by
    rw [List.takeWhile_append_of_pos (List.all_eq_true.mp hkey.2), hstop, List.append_nil]
  have hbehind : (key.toList ++ rest).dropWhile isBareKeyChar = rest := by
    rw [List.dropWhile_append_of_pos (List.all_eq_true.mp hkey.2), hgo]
  unfold simpleKey?
  split
  · next heq => exact absurd (congrArg List.head? heq) (head?_ne_of_isBareKey hkey (by decide))
  · next heq => exact absurd (congrArg List.head? heq) (head?_ne_of_isBareKey hkey (by decide))
  · dsimp only
    rw [hname, hbehind, if_neg (by simpa using hkey.1), String.ofList_toList]

/-- A bare key that no dot follows is read with the blanks behind it. -/
theorem key?_of_isBareKey {key : String} {c : Char} {more : List Char} (hkey : IsBareKey key)
    (hrest : ∀ c ∈ rest.head?, isBareKeyChar c = false) (hmore : skipWhite rest = c :: more)
    (hdot : c ≠ '.') : key? (fuel + 1) (key.toList ++ rest) = some ([key], c :: more) := by
  rw [key?, (startsSolid_of_isBareKey hkey).skipWhite, simpleKey?_of_isBareKey hkey hrest]
  simp only [Option.bind_eq_bind, Option.bind_some, hmore]
  split
  · next heq => exact absurd (List.cons.inj heq).1 hdot
  · rfl

/-! ## Lines -/

/-- Whether a text is read as lines that lead from one document to another, whatever lines follow.
Fuel for all that is left stays so. -/
def Leads (d : Document) (text : List Char) (d' : Document) : Prop :=
  ∀ fuel rest, text.length + rest.length < fuel →
    ∃ fuel', rest.length < fuel' ∧ readLines fuel d (text ++ rest) = readLines fuel' d' rest

theorem Leads.nil (d : Document) : Leads d [] d :=
  fun fuel _ hfuel => ⟨fuel, by simpa using hfuel, rfl⟩

theorem Leads.append {d d' d'' : Document} {more : List Char} (h : Leads d text d')
    (hmore : Leads d' more d'') : Leads d (text ++ more) d'' := by
  intro fuel rest hfuel
  rw [List.length_append] at hfuel
  obtain ⟨fuel', hfuel', hread⟩ := h fuel (more ++ rest) (by rw [List.length_append]; omega)
  rw [List.length_append] at hfuel'
  obtain ⟨fuel'', hfuel'', hread'⟩ := hmore fuel' rest hfuel'
  exact ⟨fuel'', hfuel'', by rw [List.append_assoc, hread, hread']⟩

/-- One line takes one step. -/
theorem Leads.line {d d' : Document} (hne : text ≠ [])
    (hread : ∀ fuel rest, readLines (fuel + 1) d (text ++ rest) = readLines fuel d' rest) :
    Leads d text d' := by
  intro fuel rest hfuel
  obtain ⟨fuel, rfl⟩ := Nat.exists_eq_succ_of_ne_zero (Nat.ne_zero_of_lt hfuel)
  have hpos : 0 < text.length := List.length_pos_iff.mpr hne
  exact ⟨fuel, by omega, hread fuel rest⟩

theorem leads_blank (d : Document) : Leads d ['\n'] d := .line (by decide) fun _ _ => rfl

/-- A line that begins with a key is a pair. -/
theorem readLines_of_isBareKey {d : Document} {key : String} (hkey : IsBareKey key) :
    readLines (fuel + 1) d (key.toList ++ rest) =
      (readPair d (key.toList ++ rest)).bind fun (d, rest) => readLines fuel d rest := by
  have hsolid : StartsSolid (key.toList ++ rest) := startsSolid_of_isBareKey hkey
  rw [readLines, hsolid.skipWhite]
  split
  · next heq => exact absurd (List.append_eq_nil_iff.mp heq).1 (by simpa using hkey.1)
  · next heq => exact absurd (congrArg List.head? heq) (head?_ne_of_isBareKey hkey (by decide))
  · next heq => exact absurd (congrArg List.head? heq) (head?_ne_of_isBareKey hkey (by decide))
  · rw [hsolid.lineBreak?]

/-- The line of a pair is read up to the next. -/
theorem readPair_of_isWritten {d : Document} {key : String} {written : List Char} {v : Value}
    {entries : Entries} (hkey : IsBareKey key) (hwritten : IsWritten maxDepth written v)
    (hadd : d.entries.addValue d.header [] key v = some entries) :
    readPair d (key.toList ++ (" = ".toList ++ (written ++ '\n' :: rest))) =
      some ({ d with entries }, rest) := by
  have hread : key? maxDepth (key.toList ++ (" = ".toList ++ (written ++ '\n' :: rest))) =
      some ([key], '=' :: ' ' :: (written ++ '\n' :: rest)) :=
    key?_of_isBareKey hkey (by simp; decide) rfl (by decide)
  have hwhite : skipWhite (' ' :: (written ++ '\n' :: rest)) = written ++ '\n' :: rest :=
    (hwritten.starts _).skipWhite
  have hvalue (fuel : Nat) (hfuel : written.length ≤ fuel) :
      value? fuel maxDepth (written ++ '\n' :: rest) = some (v, '\n' :: rest) :=
    hwritten.value? fuel _ hfuel (by simp [StartsUnquoted])
  have hend : lineEnd? ('\n' :: rest) = some rest := rfl
  rw [readPair, hread]
  simp only [Option.bind_eq_bind, Option.bind_some, char?, if_true, hwhite]
  -- the fuel is that of the line and all that follows, which is more than the value takes
  rw [hvalue _ (by simp only [List.length_append]; omega)]
  simp only [Option.bind_some, hend, List.dropLast_singleton, List.getLast?_singleton,
    Option.getD_some, hadd]

/-- The line of a header is read up to the next. -/
theorem readHeader_of_isBareKey {d : Document} {key : String} {entries : Entries}
    (hkey : IsBareKey key) (hopen : d.entries.openTable [] key = some entries) :
    readHeader d (key.toList ++ ']' :: '\n' :: rest) =
      some ({ header := [key], entries }, rest) := by
  have hread : key? maxDepth (key.toList ++ ']' :: '\n' :: rest) =
      some ([key], ']' :: '\n' :: rest) := key?_of_isBareKey hkey (by simp; decide) rfl (by decide)
  have hsingle : (key.toList ++ ']' :: '\n' :: rest).head? ≠ some '[' :=
    head?_ne_of_isBareKey hkey (by decide)
  have hend : lineEnd? ('\n' :: rest) = some rest := rfl
  rw [readHeader]
  simp only [if_neg hsingle, hread, Option.bind_eq_bind, Option.bind_some, char?, if_true, hend,
    List.dropLast_singleton, List.getLast?_singleton, Option.getD_some, hopen]

/-- A pair adds its value. -/
theorem leads_pair {d : Document} {key written : String} {v : Value} {entries : Entries}
    (hkey : IsBareKey key) (hwritten : IsWritten maxDepth written.toList v)
    (hadd : d.entries.addValue d.header [] key v = some entries) :
    Leads d (writePair key written).toList { d with entries } := by
  have htext : (writePair key written).toList =
      key.toList ++ (" = ".toList ++ (written.toList ++ ['\n'])) := by simp [writePair]
  refine .line (by simp [htext]) fun fuel rest => ?_
  rw [htext, List.append_assoc, readLines_of_isBareKey hkey, List.append_assoc, List.append_assoc,
    List.singleton_append, readPair_of_isWritten hkey hwritten hadd, Option.bind_some]

/-- A header opens its table. -/
theorem leads_header {d : Document} {key : String} {entries : Entries} (hkey : IsBareKey key)
    (hopen : d.entries.openTable [] key = some entries) :
    Leads d ('[' :: (key.toList ++ [']', '\n'])) { header := [key], entries } := by
  refine .line (by simp) fun fuel rest => ?_
  have hline : readLines (fuel + 1) d ('[' :: (key.toList ++ ']' :: '\n' :: rest)) =
      (readHeader d (key.toList ++ ']' :: '\n' :: rest)).bind fun (d, rest) =>
        readLines fuel d rest := rfl
  rw [List.cons_append, List.append_assoc]
  exact hline.trans (by rw [readHeader_of_isBareKey hkey hopen, Option.bind_some])

/-- The entries of a text in lines. -/
theorem parse?_of_leads {text : String} {d : Document} (h : Leads {} text.toList d)
    (hmark : text.toList.head? ≠ some '\uFEFF') : parse? text = some d.entries := by
  obtain ⟨fuel, hfuel, hread⟩ := h (text.toList.length + 1) [] (Nat.lt_succ_self _)
  obtain ⟨fuel, rfl⟩ := Nat.exists_eq_succ_of_ne_zero (Nat.ne_zero_of_lt hfuel)
  unfold parse?
  split
  · next heq => exact absurd (by rw [heq]; rfl) hmark
  · rw [List.append_nil] at hread
    dsimp only
    rw [hread]
    rfl

/-! ## Entries -/

namespace Entries

variable {entries inner : Entries} {key table : String} {v : Value}

/-- A value is put behind the entries of other keys. -/
theorem put_append (h : entries.lookup key = none) (more : Entries) :
    Entries.put (entries ++ more) key v = entries ++ Entries.put more key v := by
  induction entries with
  | nil => rfl
  | cons entry entries ih =>
    rw [List.lookup_cons] at h
    split at h
    · cases h
    · next hne =>
      have hkey : entry.1 ≠ key := fun heq => by simp [heq] at hne
      rw [List.cons_append, put, if_neg hkey, ih h, List.cons_append]

/-- A new key comes behind the others of the document. -/
theorem addValue_root (h : entries.lookup key = none) :
    entries.addValue [] [] key v = some (entries ++ [(key, v)]) := by
  simp [addValue, addDotted, changeAt, h]

/-- A new table comes behind the other entries of the document. -/
theorem openTable_root (h : entries.lookup key = none) :
    entries.openTable [] key = some (entries ++ [(key, .table .header [])]) := by
  have hput : entries.put key (.table .header []) = entries ++ [(key, .table .header [])] := by
    simpa [put] using put_append h []
  simp [openTable, changeAt, h, hput]

/-- A new key of the table of the last header comes behind the others of the table. -/
theorem addValue_header (h : entries.lookup table = none) (hkey : inner.lookup key = none) :
    addValue [table] [] key v (entries ++ [(table, .table .header inner)]) =
      some (entries ++ [(table, .table .header (inner ++ [(key, v)]))]) := by
  have hlookup : (entries ++ [(table, Value.table .header inner)]).lookup table =
      some (.table .header inner) := by simp [List.lookup_append, h]
  have hput (w : Value) : Entries.put (entries ++ [(table, .table .header inner)]) table w =
      entries ++ [(table, w)] := by rw [put_append h]; simp [put]
  simp [addValue, addDotted, changeAt, hlookup, hkey, hput]

end Entries

end QueryBook.Toml
