import DesignTokens.Json.Reader
import DesignTokens.Json.Writer

/-!
# Reading written texts, numbers and names

A text is read up to its closing quote, since every character of it is read from the way it is
written. A whole number is read up to the first character behind its digits, and a named value up to
the end of its name.

## Main definitions

- `Json.Ends` — what stands behind a written value
-/

namespace DesignTokens.Json

variable {rest : List Char}

section Texts

/-- A character below the first printable one is read from its four digits. -/
theorem unit?_hexDigits {n : Nat} (hn : n < 32) (hrest : rest ≠ []) :
    unit? (Text.hexDigits 4 n ++ rest) = some (n, rest) := by
  have hvalue : ∀ n < 32, hexNumber? (Text.hexDigits 4 n) = some n := by decide
  have hlength : (Text.hexDigits 4 n).length = 4 := by simp [Text.hexDigits]
  simp [unit?, List.take_left' hlength, List.drop_left' hlength, hlength, hvalue n hn, hrest]

/-- The three ways in which a character is written. -/
theorem quotedChar_cases (c : Char) :
    (∃ letter, quotedChar .unicode c = ['\\', letter] ∧ letter ≠ 'u' ∧ escaped? letter = some c) ∨
      (c.toNat < 32 ∧ quotedChar .unicode c = unitEscape c.toNat) ∨
      (c ≠ '"' ∧ c ≠ '\\' ∧ 32 ≤ c.toNat ∧ quotedChar .unicode c = [c]) := by
  by_cases hletter : c ∈ ['"', '\\', '\n', '\r', '\t', '\x08', '\x0c']
  · simp only [List.mem_cons, List.not_mem_nil, or_false] at hletter
    rcases hletter with rfl | rfl | rfl | rfl | rfl | rfl | rfl <;>
      exact .inl ⟨_, rfl, by decide, rfl⟩
  · unfold quotedChar
    simp only [List.mem_cons, List.not_mem_nil, or_false, not_or] at hletter
    obtain ⟨hquote, hslash, hline, hreturn, htab, hback, hfeed⟩ := hletter
    simp only [hquote, hslash, hline, hreturn, htab, hback, hfeed, if_false]
    by_cases hcontrol : c.toNat < 32
    · exact .inr (.inl ⟨hcontrol, if_pos hcontrol⟩)
    · exact .inr (.inr ⟨hquote, hslash, by omega, if_neg hcontrol⟩)

/-- Every character is read from the way it is written. -/
theorem readChars_quotedChar (start done : List Char) (fuel : Nat) (c : Char) (hrest : rest ≠ []) :
    readChars start (fuel + 1) done (quotedChar .unicode c ++ rest) =
      readChars start fuel (c :: done) rest := by
  obtain ⟨letter, hquoted, hu, hescaped⟩ | ⟨hcontrol, hquoted⟩ | ⟨hquote, hslash, hprint, hquoted⟩ :=
    quotedChar_cases c
  · simp [hquoted, readChars, hu, hescaped]
  · have hunits : readUnits ('u' :: (Text.hexDigits 4 c.toNat ++ rest)) = .ok (c, rest) := by
      have hhigh : ¬ 0xD800 ≤ c.toNat := by omega
      simp [readUnits, unit?_hexDigits hcontrol hrest, hhigh, Text.ofCodePoint, Char.ofNat_toNat]
    simp [hquoted, unitEscape, readChars, hunits]
  · have hcontrol : ¬ c.toNat < 32 := by omega
    simp [hquoted, readChars, hquote, hslash, hcontrol]

theorem readChars_quoted (start : List Char) {fuel : Nat} (done cs rest : List Char)
    (hfuel : cs.length < fuel) :
    readChars start fuel done (cs.flatMap (quotedChar .unicode) ++ '"' :: rest) =
      .ok (String.ofList (done.reverse ++ cs), rest) := by
  induction cs generalizing fuel done with
  | nil =>
    obtain ⟨fuel, rfl⟩ := Nat.exists_eq_succ_of_ne_zero (Nat.ne_of_gt hfuel)
    simp [readChars]
  | cons c cs ih =>
    obtain ⟨fuel, rfl⟩ := Nat.exists_eq_succ_of_ne_zero (Nat.ne_of_gt (Nat.zero_lt_of_lt hfuel))
    rw [List.flatMap_cons, List.append_assoc, readChars_quotedChar _ _ _ _ (by simp),
      ih (c :: done) (by simpa using hfuel)]
    simp

/-- A text takes at least as many characters when it is written. -/
theorem length_le_quoted (cs : List Char) :
    cs.length ≤ (cs.flatMap (quotedChar .unicode)).length := by
  have hchar (c : Char) : 1 ≤ (quotedChar .unicode c).length := by
    obtain ⟨_, hquoted, -⟩ | ⟨-, hquoted⟩ | ⟨-, -, -, hquoted⟩ := quotedChar_cases c <;>
      simp [hquoted, unitEscape]
  induction cs with
  | nil => simp
  | cons c cs ih =>
    have hc := hchar c
    rw [List.flatMap_cons, List.length_append, List.length_cons]
    omega

/-- A written text is read up to its closing quote. -/
theorem readText_quote (s : String) (rest : List Char) :
    readText ((quote .unicode s).toList ++ rest) = .ok (s, rest) := by
  have hchars : (quote .unicode s).toList ++ rest =
      '"' :: (s.toList.flatMap (quotedChar .unicode) ++ '"' :: rest) := by
    simp [quote]
  rw [hchars, readText, List.drop_one, List.tail_cons, readChars_quoted]
  · simp
  · have hlength := length_le_quoted s.toList
    simp only [List.length_cons, List.length_append]
    omega

end Texts

section Numbers

/-- What stands behind a written value: nothing, the end of a line or a comma. -/
def Ends (rest : List Char) : Prop :=
  ∀ c ∈ rest.head?, c = '\n' ∨ c = ','

theorem isAsciiDigit_of_mem_toDigits {n : Nat} {c : Char} (h : c ∈ Nat.toDigits 10 n) :
    Text.isAsciiDigit c = true := by
  have hdigit := Nat.isDigit_of_mem_toDigits (by decide) (by decide) h
  simpa [Char.isDigit, Text.isAsciiDigit, Char.le_def] using hdigit

theorem ne_of_digit {c : Char} (hc : Text.isAsciiDigit c = true) (d : Char)
    (hd : Text.isAsciiDigit d = false) : c ≠ d := by
  rintro rfl
  rw [hc] at hd
  cases hd

/-- The digits of a number start with a zero only if the number is zero. -/
theorem head?_toDigits {n : Nat} (hn : 0 < n) : (Nat.toDigits 10 n).head? ≠ some '0' := by
  induction n using Nat.strongRecOn with
  | ind n ih =>
    by_cases hlt : n < 10
    · rw [Nat.toDigits_of_lt_base hlt]
      have hdigit : ∀ n < 10, 0 < n → [Nat.digitChar n].head? ≠ some '0' := by decide
      exact hdigit n hlt hn
    · have hpos : 0 < n / 10 := by omega
      have hne : Nat.toDigits 10 (n / 10) ≠ [] := Nat.toDigits_ne_nil
      rw [Nat.toDigits_of_base_le (by decide) (by omega), List.head?_append,
        List.head?_eq_some_head hne, Option.some_or, ← List.head?_eq_some_head hne]
      exact ih (n / 10) (by omega) hpos

theorem decimalNumber_toDigits (n : Nat) : decimalNumber (Nat.toDigits 10 n) = n := by
  have hfold : Nat.ofDigitChars 10 (Nat.toDigits 10 n) 0 = decimalNumber (Nat.toDigits 10 n) :=
    Nat.ofDigitChars_eq_foldl
  rw [← hfold, Nat.ofDigitChars_ten_toDigits]

theorem wholeDigits?_toDigits (n : Nat) (h : Ends rest) :
    wholeDigits? (Nat.toDigits 10 n ++ rest) = some (Nat.toDigits 10 n, rest) := by
  by_cases hn : n = 0
  · subst hn
    rfl
  · have hdigits : ∀ c ∈ Nat.toDigits 10 n, Text.isAsciiDigit c = true :=
      fun c => isAsciiDigit_of_mem_toDigits
    have hends : rest.takeWhile Text.isAsciiDigit = [] ∧ rest.dropWhile Text.isAsciiDigit = rest := by
      cases rest with
      | nil => exact ⟨rfl, rfl⟩
      | cons c rest =>
        obtain rfl | rfl := h c rfl <;> exact ⟨rfl, rfl⟩
    have htaken : (Nat.toDigits 10 n ++ rest).takeWhile Text.isAsciiDigit = Nat.toDigits 10 n := by
      rw [List.takeWhile_append_of_pos hdigits, hends.1, List.append_nil]
    have hleft : (Nat.toDigits 10 n ++ rest).dropWhile Text.isAsciiDigit = rest := by
      rw [List.dropWhile_append_of_pos hdigits, hends.2]
    have hne : Nat.toDigits 10 n ≠ [] := Nat.toDigits_ne_nil
    unfold wholeDigits?
    split
    · next heq =>
      -- A number that starts with a zero is zero.
      have hhead := congrArg List.head? heq
      rw [List.head?_append, List.head?_eq_some_head hne, Option.some_or,
        ← List.head?_eq_some_head hne] at hhead
      exact absurd hhead (head?_toDigits (Nat.pos_of_ne_zero hn))
    · simp [htaken, hleft, hne]

/-- The first character of a number is a digit. -/
theorem exists_digit (n : Nat) (rest : List Char) : ∃ c more,
    Nat.toDigits 10 n ++ rest = c :: more ∧ Text.isAsciiDigit c = true := by
  obtain ⟨c, more, hdigits⟩ := List.exists_cons_of_ne_nil (Nat.toDigits_ne_nil (n := n) (b := 10))
  refine ⟨c, more ++ rest, by rw [hdigits, List.cons_append], ?_⟩
  exact isAsciiDigit_of_mem_toDigits (hdigits ▸ List.mem_cons_self)

/-- The text of a whole number: its digits, behind a sign if it is negative. -/
theorem toList_toString_int (n : Int) : (toString n).toList =
    if n < 0 then '-' :: Nat.toDigits 10 n.natAbs else Nat.toDigits 10 n.natAbs := by
  cases n with
  | ofNat n => simp [toString, Int.repr, Nat.repr_eq_ofList_toDigits]
  | negSucc n => simp [toString, Int.repr, Nat.repr_eq_ofList_toDigits]

theorem readNumber_toString (n : Int) (h : Ends rest) :
    readNumber ((toString n).toList ++ rest) = .ok (.int n, rest) := by
  have hfraction : fraction? rest = none := by
    cases rest with
    | nil => rfl
    | cons c rest => obtain rfl | rfl := h c rfl <;> rfl
  have hexponent : exponent? rest = none := by
    cases rest with
    | nil => rfl
    | cons c rest => obtain rfl | rfl := h c rfl <;> rfl
  have hwhole := wholeDigits?_toDigits n.natAbs h
  have hdecimal := decimalNumber_toDigits n.natAbs
  rw [toList_toString_int]
  by_cases hn : n < 0
  · have hminus : -(n.natAbs : Int) = n := by omega
    simp only [readNumber, hn, if_true, List.cons_append, List.head?_cons, List.drop_one,
      List.tail_cons, beq_self_eq_true, hwhole, hfraction, hexponent, hdecimal, hminus,
      Bool.or_self, Bool.false_eq_true, if_false]
  · have hplus : (n.natAbs : Int) = n := by omega
    have hstart : ((Nat.toDigits 10 n.natAbs ++ rest).head? == some '-') = false := by
      obtain ⟨c, more, hdigits, hc⟩ := exists_digit n.natAbs rest
      simp [hdigits, ne_of_digit hc '-' rfl]
    simp only [readNumber, hn, hstart, hwhole, hfraction, hexponent, hdecimal, hplus,
      Bool.false_eq_true, Bool.or_self, if_false]

end Numbers

section Values

/-- A digit starts no name, with a sign before it or without. -/
theorem name?_digit {c : Char} (hc : Text.isAsciiDigit c = true) (more : List Char) :
    name? (c :: more) = none ∧ name? ('-' :: c :: more) = none := by
  have hwords : ∀ named ∈ names, (named.1.toList.take 2).length = 2 ∧
      (named.1.toList.take 2).all (fun letter => !Text.isAsciiDigit letter) = true := by
    decide
  have hapart : ∀ named ∈ names, named.1.toList.isPrefixOf (c :: more) = false ∧
      named.1.toList.isPrefixOf ('-' :: c :: more) = false := by
    intro named hmem
    obtain ⟨hlength, hletters⟩ := hwords named hmem
    simp only [List.all_eq_true, Bool.not_eq_true'] at hletters
    generalize named.1.toList = word at hlength hletters ⊢
    match word, hlength, hletters with
    | first :: second :: _, _, hletters =>
      have hfirst := ne_of_digit hc first (hletters first (by simp))
      have hsecond := ne_of_digit hc second (hletters second (by simp))
      simp [List.isPrefixOf, hfirst.symm, hsecond.symm]
  constructor
  · exact List.findSome?_eq_none_iff.mpr fun named hmem =>
      if_neg (ne_true_of_eq_false (hapart named hmem).1)
  · exact List.findSome?_eq_none_iff.mpr fun named hmem =>
      if_neg (ne_true_of_eq_false (hapart named hmem).2)

theorem readValue_int (fuel : Nat) (n : Int) (h : Ends rest) :
    readValue (fuel + 1) ((toString n).toList ++ rest) = .ok (.int n, rest) := by
  have hnumber := readNumber_toString n h
  rw [toList_toString_int] at hnumber ⊢
  obtain ⟨c, more, hdigits, hc⟩ := exists_digit n.natAbs rest
  obtain ⟨hname, hsigned⟩ := name?_digit hc more
  by_cases hn : n < 0
  · rw [if_pos hn, List.cons_append, hdigits] at hnumber ⊢
    simp [readValue, hsigned, hnumber]
  · rw [if_neg hn, hdigits] at hnumber ⊢
    rw [readValue]
    · simp [hname, hnumber]
    · exact fun _ heq => ne_of_digit hc '"' rfl (List.cons.inj heq).1
    · exact fun _ heq => ne_of_digit hc '[' rfl (List.cons.inj heq).1
    · exact fun _ heq => ne_of_digit hc '\x7b' rfl (List.cons.inj heq).1

/-- A named value is read up to the end of its name. -/
theorem readValue_name (fuel : Nat) {word : String} {d : Document} (h : (word, d) ∈ names)
    (rest : List Char) : readValue (fuel + 1) (word.toList ++ rest) = .ok (d, rest) := by
  simp only [names, List.mem_cons, Prod.mk.injEq, List.not_mem_nil, or_false] at h
  rcases h with ⟨rfl, rfl⟩ | ⟨rfl, rfl⟩ | ⟨rfl, rfl⟩ | ⟨rfl, rfl⟩ | ⟨rfl, rfl⟩ | ⟨rfl, rfl⟩ <;> rfl

end Values

end DesignTokens.Json
