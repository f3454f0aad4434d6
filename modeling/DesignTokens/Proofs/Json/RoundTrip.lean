import DesignTokens.Proofs.Json.Regular
import DesignTokens.Proofs.Json.Scalars

/-!
# Reading written documents

A document that is written over several lines is read again from its text, if every number in it is
whole or infinite: a list and a mapping are read item by item, each behind a comma and the start of a
line. The reader is given as many steps as the text has characters, which is enough for every value
in it.

## Main definitions

- `LeafRule.named` — the leaves of JSON, where every number is whole or infinite
- `Json.ReadsWritten` — a value that is read from its text, whatever stands behind it
-/

namespace DesignTokens

/-- The leaves of JSON, where every number is whole or infinite. -/
def LeafRule.named : LeafRule :=
  ⟨fun x => x = .infinity || x = .withSign true Double.infinityBits, false⟩

namespace Json

variable {rest : List Char}

section Spaces

theorem skipSpace_cons {c : Char} (hc : isSpace c = false) (cs : List Char) :
    skipSpace (c :: cs) = c :: cs := by
  simp [skipSpace, hc]

theorem toList_newline (depth : Nat) :
    (newline depth).toList = '\n' :: List.replicate (2 * depth) ' ' := by
  simp [newline, Text.replicate]

/-- The start of a line is skipped. -/
theorem skipSpace_newline (depth : Nat) (cs : List Char) :
    skipSpace ((newline depth).toList ++ cs) = skipSpace cs := by
  have hspaces : ∀ c ∈ (newline depth).toList, isSpace c = true := by
    rw [toList_newline]
    simp [isSpace]
  exact List.dropWhile_append_of_pos hspaces

theorem ends_newline (depth : Nat) (cs : List Char) : Ends ((newline depth).toList ++ cs) := by
  rw [toList_newline]
  rintro c ⟨rfl⟩
  exact .inl rfl

theorem indentedAt_float (depth : Nat) {x : Double} (h : (Document.float x).Regular .named) :
    (x = .infinity ∧ indentedAt depth (.float x) = "Infinity") ∨
      (x = .withSign true Double.infinityBits ∧ indentedAt depth (.float x) = "-Infinity") := by
  have hx : x = .infinity ∨ x = .withSign true Double.infinityBits := by
    simpa [Document.Regular, LeafRule.named] using h
  obtain rfl | rfl := hx
  · exact .inl ⟨rfl, rfl⟩
  · exact .inr ⟨rfl, rfl⟩

/-- A written value starts with a character that is no space, closes no list and marks no order of
octets. -/
theorem exists_start (depth : Nat) {d : Document} (h : d.Regular .named) : ∃ c more,
    (indentedAt depth d).toList = c :: more ∧ isSpace c = false ∧ c ≠ ']' ∧ c ≠ '\uFEFF' := by
  have hstart (c : Char) (hc : isSpace c = false ∧ c ≠ ']' ∧ c ≠ '\uFEFF') {cs : List Char}
      (hcs : cs.head? = some c) :
      ∃ c more, cs = c :: more ∧ isSpace c = false ∧ c ≠ ']' ∧ c ≠ '\uFEFF' := by
    obtain ⟨more, rfl⟩ := List.head?_eq_some_iff.mp hcs
    exact ⟨c, more, rfl, hc⟩
  cases d with
  | null => exact hstart 'n' (by decide) (by simp [indentedAt, scalar])
  | bool b =>
    cases b with
    | true => exact hstart 't' (by decide) (by simp [indentedAt, scalar])
    | false => exact hstart 'f' (by decide) (by simp [indentedAt, scalar])
  | int n =>
    have htext : indentedAt depth (.int n) = toString n := by simp [indentedAt, scalar]
    rw [htext, toList_toString_int]
    split
    · exact hstart '-' (by decide) rfl
    · obtain ⟨c, more, hdigits, hc⟩ := exists_digit n.natAbs []
      rw [List.append_nil] at hdigits
      refine hstart c ⟨?_, ne_of_digit hc ']' rfl, ne_of_digit hc '\uFEFF' rfl⟩ (by rw [hdigits]; rfl)
      simp [isSpace, ne_of_digit hc ' ' rfl, ne_of_digit hc '\t' rfl, ne_of_digit hc '\n' rfl,
        ne_of_digit hc '\r' rfl]
  | float x =>
    obtain ⟨-, htext⟩ | ⟨-, htext⟩ := indentedAt_float depth h
    · exact hstart 'I' (by decide) (by rw [htext]; rfl)
    · exact hstart '-' (by decide) (by rw [htext]; rfl)
  | text s => exact hstart '"' (by decide) (by simp [indentedAt, scalar, quote])
  | stamp t => exact absurd h (by simp [Document.Regular, LeafRule.named])
  | list items => cases items <;> exact hstart '[' (by decide) (by simp [indentedAt])
  | mapping entries => cases entries <;> exact hstart '\x7b' (by decide) (by simp [indentedAt])

end Spaces

section Collections

/-- A value is read from its text, whatever stands behind it. -/
def ReadsWritten (d : Document) : Prop :=
  ∀ depth fuel rest, Ends rest → (indentedAt depth d).toList.length ≤ fuel →
    readValue fuel ((indentedAt depth d).toList ++ rest) = .ok (d, rest)

theorem skipSpace_indentedAt (depth : Nat) {d : Document} (h : d.Regular .named)
    (rest : List Char) : skipSpace ((indentedAt depth d).toList ++ rest) =
      (indentedAt depth d).toList ++ rest := by
  obtain ⟨c, more, htext, hc, -⟩ := exists_start depth h
  rw [htext]
  exact skipSpace_cons hc _

theorem length_indentedAt_pos (depth : Nat) {d : Document} (h : d.Regular .named) :
    0 < (indentedAt depth d).toList.length := by
  obtain ⟨c, more, htext, -⟩ := exists_start depth h
  simp [htext]

/-- The first of some pieces, and the others behind it. -/
theorem toList_join_cons_cons (separator first second : String) (pieces : List String) :
    (Text.join separator (first :: second :: pieces)).toList = first.toList ++
      (separator.toList ++ (Text.join separator (second :: pieces)).toList) := by
  simp [Text.join, String.intercalate_cons_cons]

/-- Some pieces start as the first of them does. -/
theorem exists_toList_join {first : String} {c : Char} {more : List Char}
    (hfirst : first.toList = c :: more) (separator : String) (pieces : List String) :
    ∃ others, (Text.join separator (first :: pieces)).toList = c :: others := by
  cases pieces with
  | nil => exact ⟨more, by simp [Text.join, hfirst]⟩
  | cons second pieces => exact ⟨_, by rw [toList_join_cons_cons, hfirst, List.cons_append]⟩

theorem skipSpace_closing (depth : Nat) {bracket : Char} (hbracket : isSpace bracket = false)
    (rest : List Char) :
    skipSpace ((newline depth).toList ++ bracket :: rest) = bracket :: rest := by
  rw [skipSpace_newline, skipSpace_cons hbracket]

theorem toList_comma (depth : Nat) :
    ("," ++ newline depth).toList = ',' :: (newline depth).toList := by
  simp

theorem ends_comma (cs : List Char) : Ends (',' :: cs) := by
  rintro c ⟨rfl⟩
  exact .inr rfl

/-- The items of a written list, from one of them on. -/
theorem readItems_written (depth closing : Nat) {first : Document} {items : List Document}
    (hregular : ∀ item ∈ first :: items, item.Regular .named)
    (hread : ∀ item ∈ first :: items, ReadsWritten item) {fuel : Nat} (done : List Document)
    (rest : List Char)
    (hfuel : (Text.join ("," ++ newline depth) (indentedItems depth (first :: items))).toList.length
      ≤ fuel) :
    readItems (fuel + 1) done
      ((Text.join ("," ++ newline depth) (indentedItems depth (first :: items))).toList ++
        ((newline closing).toList ++ ']' :: rest)) =
      .ok (.list (done.reverse ++ first :: items), rest) := by
  induction items generalizing first fuel done with
  | nil =>
    have htext : Text.join ("," ++ newline depth) (indentedItems depth [first]) =
        indentedAt depth first := by
      simp [indentedItems, Text.join]
    rw [htext] at hfuel ⊢
    rw [readItems, hread first List.mem_cons_self depth fuel _ (ends_newline _ _) hfuel]
    simp only [bind, Except.bind, skipSpace_closing closing (show isSpace ']' = false from rfl)]
    simp
  | cons second items ih =>
    obtain ⟨hfirst, hregular⟩ := List.forall_mem_cons.mp hregular
    obtain ⟨hvalue, hread⟩ := List.forall_mem_cons.mp hread
    have hshorter := length_indentedAt_pos depth hfirst
    obtain ⟨c, _, htext, hc, -⟩ := exists_start depth (hregular second List.mem_cons_self)
    obtain ⟨others, hothers⟩ :=
      exists_toList_join htext ("," ++ newline depth) (indentedItems depth items)
    simp only [indentedItems] at hfuel ih ⊢
    rw [toList_join_cons_cons] at hfuel ⊢
    simp only [toList_comma, List.length_append, List.length_cons] at hfuel
    -- The item and its comma take characters, so a step is left for the items behind them.
    obtain ⟨fuel, rfl⟩ := Nat.exists_eq_succ_of_ne_zero (show fuel ≠ 0 by omega)
    rw [List.append_assoc, List.append_assoc, toList_comma, List.cons_append, readItems,
      hvalue depth (fuel + 1) _ (ends_comma _) (by omega)]
    simp only [bind, Except.bind, skipSpace_cons (show isSpace ',' = false from rfl),
      skipSpace_newline]
    have hread := ih hregular hread (first :: done) (show _ ≤ fuel by omega)
    rw [hothers, List.cons_append] at hread ⊢
    rw [skipSpace_cons hc, hread]
    simp

theorem exists_quote (s : String) : ∃ more, (quote .unicode s).toList = '"' :: more := by
  simp [quote]

/-- The text of an entry. -/
theorem toList_entry (depth : Nat) (key : String) (value : Document) :
    (quote .unicode key ++ ": " ++ indentedAt depth value).toList =
      (quote .unicode key).toList ++ ':' :: ' ' :: (indentedAt depth value).toList := by
  simp

theorem exists_entry (depth : Nat) (key : String) (value : Document) : ∃ more,
    (quote .unicode key ++ ": " ++ indentedAt depth value).toList = '"' :: more := by
  obtain ⟨more, hquote⟩ := exists_quote key
  exact ⟨_, by rw [toList_entry, hquote, List.cons_append]⟩

/-- An entry is read up to the end of the mapping behind it, or up to the comma before the next. -/
theorem readEntries_entry {depth fuel : Nat} {value : Document} (key : String)
    (hregular : value.Regular .named) (hread : ReadsWritten value)
    (done : List (String × Document)) (hends : Ends rest)
    (hfuel : (indentedAt depth value).toList.length ≤ fuel) {after : List Char} :
    (skipSpace rest = '\x7d' :: after → readEntries (fuel + 1) done
      ((quote .unicode key ++ ": " ++ indentedAt depth value).toList ++ rest) =
        .ok (.mapping (Mapping.ofEntries ((key, value) :: done).reverse), after)) ∧
    (skipSpace rest = ',' :: after → readEntries (fuel + 1) done
      ((quote .unicode key ++ ": " ++ indentedAt depth value).toList ++ rest) =
        readEntries fuel ((key, value) :: done) (skipSpace after)) := by
  have hvalue : readValue fuel (skipSpace (' ' :: ((indentedAt depth value).toList ++ rest))) =
      .ok (value, rest) := by
    have hspace : skipSpace (' ' :: ((indentedAt depth value).toList ++ rest)) =
        skipSpace ((indentedAt depth value).toList ++ rest) := rfl
    rw [hspace, skipSpace_indentedAt depth hregular]
    exact hread depth fuel rest hends hfuel
  have hkey := readText_quote key (':' :: ' ' :: ((indentedAt depth value).toList ++ rest))
  have hcolon := skipSpace_cons (show isSpace ':' = false from rfl)
  obtain ⟨more, hquote⟩ := exists_quote key
  rw [toList_entry, List.append_assoc, List.cons_append, List.cons_append]
  rw [hquote, List.cons_append] at hkey ⊢
  rw [readEntries]
  constructor
  · intro hafter
    simp only [hkey, bind, Except.bind, hcolon, hvalue, hafter]
  · intro hafter
    simp only [hkey, bind, Except.bind, hcolon, hvalue, hafter]

/-- The entries of a written mapping, from one of them on. -/
theorem readEntries_written (depth closing : Nat) {first : String × Document}
    {entries : List (String × Document)}
    (hregular : ∀ entry ∈ first :: entries, entry.2.Regular .named)
    (hread : ∀ entry ∈ first :: entries, ReadsWritten entry.2) {fuel : Nat}
    (done : List (String × Document)) (rest : List Char)
    (hfuel : (Text.join ("," ++ newline depth)
      (indentedEntries depth (first :: entries))).toList.length ≤ fuel) :
    readEntries (fuel + 1) done
      ((Text.join ("," ++ newline depth) (indentedEntries depth (first :: entries))).toList ++
        ((newline closing).toList ++ '\x7d' :: rest)) =
      .ok (.mapping (Mapping.ofEntries (done.reverse ++ first :: entries)), rest) := by
  induction entries generalizing first fuel done with
  | nil =>
    have htext : Text.join ("," ++ newline depth) (indentedEntries depth [first]) =
        quote .unicode first.1 ++ ": " ++ indentedAt depth first.2 := by
      simp [indentedEntries, Text.join]
    rw [htext] at hfuel ⊢
    rw [toList_entry, List.length_append, List.length_cons, List.length_cons] at hfuel
    rw [(readEntries_entry first.1 (hregular first List.mem_cons_self)
      (hread first List.mem_cons_self) done (ends_newline _ _) (by omega)).1
      (skipSpace_closing closing (show isSpace '\x7d' = false from rfl) _)]
    simp
  | cons second entries ih =>
    obtain ⟨hfirst, hregular⟩ := List.forall_mem_cons.mp hregular
    obtain ⟨hvalue, hread⟩ := List.forall_mem_cons.mp hread
    obtain ⟨_, htext⟩ := exists_entry depth second.1 second.2
    obtain ⟨others, hothers⟩ :=
      exists_toList_join htext ("," ++ newline depth) (indentedEntries depth entries)
    simp only [indentedEntries] at hfuel ih ⊢
    rw [toList_join_cons_cons] at hfuel ⊢
    simp only [toList_comma, toList_entry depth first.1, List.length_append, List.length_cons]
      at hfuel
    obtain ⟨fuel, rfl⟩ := Nat.exists_eq_succ_of_ne_zero (show fuel ≠ 0 by omega)
    rw [List.append_assoc, List.append_assoc, toList_comma, List.cons_append,
      (readEntries_entry first.1 hfirst hvalue done (ends_comma _) (by omega)).2
        (skipSpace_cons (show isSpace ',' = false from rfl) _), skipSpace_newline]
    have hread := ih hregular hread (first :: done) (show _ ≤ fuel by omega)
    rw [hothers, List.cons_append] at hread ⊢
    rw [skipSpace_cons (by rfl), hread]
    simp

end Collections

section Documents

variable {d : Document}

/-- A value that has the same text at every depth, and is read from it in one step. -/
theorem readsWritten_of_leaf {s : String} (htext : ∀ depth, indentedAt depth d = s)
    (hne : s.toList ≠ [])
    (hread : ∀ fuel rest, Ends rest → readValue (fuel + 1) (s.toList ++ rest) = .ok (d, rest)) :
    ReadsWritten d := by
  intro depth fuel rest hends hfuel
  rw [htext] at hfuel ⊢
  have hpos := List.length_pos_iff.mpr hne
  obtain ⟨fuel, rfl⟩ := Nat.exists_eq_succ_of_ne_zero (show fuel ≠ 0 by omega)
  exact hread fuel rest hends

theorem readsWritten_of_name (word : String) (h : (word, d) ∈ names)
    (htext : ∀ depth, indentedAt depth d = word) : ReadsWritten d := by
  have hwords : ∀ named ∈ names, named.1.toList ≠ [] := by decide
  exact readsWritten_of_leaf htext (hwords _ h) fun fuel rest _ => readValue_name fuel h rest

theorem readsWritten_text (s : String) : ReadsWritten (.text s) := by
  obtain ⟨more, hquote⟩ := exists_quote s
  refine readsWritten_of_leaf (s := quote .unicode s) (fun depth => ?_) (by simp [hquote]) ?_
  · simp [indentedAt, scalar]
  · intro fuel rest _
    have htext := readText_quote s rest
    rw [hquote, List.cons_append] at htext ⊢
    rw [readValue, htext]
    rfl

/-- A list or a mapping with something in it: its opening bracket and a line for each piece. -/
theorem toList_bracketed {opening closing : String} (first last : Char)
    (hopening : opening.toList = [first]) (hclosing : closing.toList = [last]) (pieces : String)
    (depth : Nat) :
    (opening ++ newline (depth + 1) ++ pieces ++ newline depth ++ closing).toList =
      first :: ((newline (depth + 1)).toList ++
        (pieces.toList ++ ((newline depth).toList ++ [last]))) := by
  simp [hopening, hclosing]

theorem readsWritten_list {items : List Document}
    (hregular : ∀ item ∈ items, item.Regular .named) (hread : ∀ item ∈ items, ReadsWritten item) :
    ReadsWritten (.list items) := by
  cases items with
  | nil =>
    refine readsWritten_of_leaf (s := "[]") (fun _ => ?_) (by decide) fun _ _ _ => rfl
    rw [indentedAt]
  | cons first items =>
    intro depth fuel rest _ hfuel
    obtain ⟨c, _, htext, hc, hclosing, -⟩ :=
      exists_start (depth + 1) (hregular first List.mem_cons_self)
    obtain ⟨others, hothers⟩ := exists_toList_join htext ("," ++ newline (depth + 1))
      (indentedItems (depth + 1) items)
    rw [indentedAt, toList_bracketed '[' ']' rfl rfl] at hfuel ⊢
    simp only [List.length_cons, List.length_append, List.length_nil] at hfuel
    obtain ⟨fuel, rfl⟩ := Nat.exists_eq_add_of_le' (show 2 ≤ fuel by omega)
    have hitems := readItems_written (depth + 1) depth hregular hread []
      rest (show _ ≤ fuel by omega)
    rw [indentedItems] at hitems ⊢
    rw [hothers, List.cons_append] at hitems
    simp only [List.append_assoc, List.cons_append, List.nil_append, readValue, skipSpace_newline,
      hothers, skipSpace_cons hc]
    split
    · next heq => exact absurd (List.cons.inj heq).1 hclosing
    · exact hitems

theorem readsWritten_mapping {entries : Mapping Document}
    (hregular : (Document.mapping entries).Regular .named)
    (hread : ∀ entry ∈ entries, ReadsWritten entry.2) :
    ReadsWritten (.mapping entries) := by
  cases entries with
  | nil =>
    refine readsWritten_of_leaf (s := "\x7b\x7d") (fun _ => ?_) (by decide) fun _ _ _ => rfl
    rw [indentedAt]
  | cons first entries =>
    intro depth fuel rest _ hfuel
    obtain ⟨_, htext⟩ := exists_entry (depth + 1) first.1 first.2
    obtain ⟨others, hothers⟩ := exists_toList_join htext ("," ++ newline (depth + 1))
      (indentedEntries (depth + 1) entries)
    obtain ⟨hnodup, hvalues⟩ := Document.regular_mapping.mp hregular
    rw [indentedAt, toList_bracketed '\x7b' '\x7d' rfl rfl] at hfuel ⊢
    simp only [List.length_cons, List.length_append, List.length_nil] at hfuel
    obtain ⟨fuel, rfl⟩ := Nat.exists_eq_add_of_le' (show 2 ≤ fuel by omega)
    have hentries := readEntries_written (depth + 1) depth hvalues hread []
      rest (show _ ≤ fuel by omega)
    rw [indentedEntries] at hentries ⊢
    rw [hothers, List.cons_append, List.reverse_nil, List.nil_append,
      Mapping.ofEntries_of_nodup hnodup] at hentries
    simp only [List.append_assoc, List.cons_append, List.nil_append, readValue, skipSpace_newline,
      hothers, skipSpace_cons (show isSpace '"' = false from rfl)]
    exact hentries

/-- A document of JSON is read from its text. -/
theorem readsWritten (h : d.Regular .named) : ReadsWritten d := by
  induction d using Document.byParts with
  | null => exact readsWritten_of_name "null" (by simp [names]) fun _ => rfl
  | bool b =>
    cases b with
    | true => exact readsWritten_of_name "true" (by simp [names]) fun _ => rfl
    | false => exact readsWritten_of_name "false" (by simp [names]) fun _ => rfl
  | int n =>
    refine readsWritten_of_leaf (s := toString n) (fun depth => ?_) ?_ fun fuel rest hends =>
      readValue_int fuel n hends
    · simp [indentedAt, scalar]
    · rw [toList_toString_int]
      split <;> simp
  | float x =>
    obtain ⟨rfl, -⟩ | ⟨rfl, -⟩ := indentedAt_float 0 h
    · exact readsWritten_of_name "Infinity" (by simp [names]) fun _ => rfl
    · exact readsWritten_of_name "-Infinity" (by simp [names]) fun _ => rfl
  | text s => exact readsWritten_text s
  | stamp t => exact absurd h (by simp [Document.Regular, LeafRule.named])
  | list items ih =>
    rw [Document.regular_list] at h
    exact readsWritten_list h fun item hmem => ih item hmem (h item hmem)
  | mapping entries ih =>
    have hentries := (Document.regular_mapping.mp h).2
    exact readsWritten_mapping h fun entry hmem => ih entry hmem (hentries entry hmem)

/-- A document of JSON is the document of its text. -/
theorem read_indented (h : d.Regular .named) : read (indented d ++ "\n").toList = .ok d := by
  obtain ⟨c, more, htext, hc, -, hmark⟩ := exists_start 0 h
  have hends : Ends ['\n'] := by
    rintro c ⟨rfl⟩
    exact .inl rfl
  have hread := readsWritten h 0 ((indented d ++ "\n").toList.length + 1) ['\n'] hends
  have hwhole : (indented d ++ "\n").toList = (indentedAt 0 d).toList ++ ['\n'] := by
    simp [indented]
  rw [hwhole] at hread ⊢
  have hread := hread (by simp; omega)
  rw [htext, List.cons_append] at hread ⊢
  rw [read, List.head?_cons, if_neg (by simpa using hmark), skipSpace_cons hc]
  simp only [hread, bind, Except.bind]
  rfl

end Documents

end Json

end DesignTokens
