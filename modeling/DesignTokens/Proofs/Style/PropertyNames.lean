import DesignTokens.Proofs.Text.Case
import DesignTokens.Style.Property

/-!
# Property names and the names they come from

A name in a stylesheet is its own stylesheet name, and the names of style objects are read back from
their stylesheet names: a hyphen stands where a capital follows, and nowhere else. So no two style
names share a name in a stylesheet.

## Main definitions

- `StyleName` — ASCII letters and digits behind a lower-case letter or the word of a browser vendor
- `unhyphenate`, `camelName` — each hyphen deleted, the letter after it upper-cased
-/

namespace DesignTokens

/-- A text starts with a lower-case letter of ASCII. -/
def StartsSmall (name : String) : Prop :=
  ∃ c rest, name.toList = c :: rest ∧ c.isLower = true

/-- The words that start the names of style properties of browser vendors. -/
def vendorNames : List String :=
  ["Webkit", "Moz", "Ms"]

/-- A text starts with the word of a vendor and a capital of ASCII. -/
def StartsVendor (name : String) : Prop :=
  ∃ word ∈ vendorNames, ∃ c rest, name.toList = word.toList ++ c :: rest ∧ c.isUpper = true

/-- A name of letters and digits of ASCII that starts with a lower-case letter, or with the word of a
vendor and a capital. -/
structure StyleName (name : String) : Prop where
  plain : ∀ c ∈ name.toList, c.isAlphanum = true
  start : StartsSmall name ∨ StartsVendor name

/-- A text with its first letter upper-cased. -/
def capitalize : List Char → List Char
  | [] => []
  | c :: rest => c.toUpper :: rest

/-- Each hyphen deleted, the letter after it upper-cased. -/
def unhyphenate : List Char → List Char
  | [] => []
  | c :: rest => if c = '-' then capitalize (unhyphenate rest) else c :: unhyphenate rest

def camelName (name : String) : String :=
  String.ofList (unhyphenate name.toList)

section Letters

variable {c : Char}

theorem isUpper_iff : c.isUpper = true ↔ 65 ≤ c.toNat ∧ c.toNat ≤ 90 :=
  decide_eq_true_iff.trans (and_congr UInt32.le_iff_toNat_le UInt32.le_iff_toNat_le)

theorem isLower_iff : c.isLower = true ↔ 97 ≤ c.toNat ∧ c.toNat ≤ 122 :=
  Bool.and_eq_true_iff.trans (and_congr
    (decide_eq_true_iff.trans UInt32.le_iff_toNat_le) (decide_eq_true_iff.trans UInt32.le_iff_toNat_le))

theorem isDigit_iff : c.isDigit = true ↔ 48 ≤ c.toNat ∧ c.toNat ≤ 57 :=
  Bool.and_eq_true_iff.trans (and_congr
    (decide_eq_true_iff.trans UInt32.le_iff_toNat_le) (decide_eq_true_iff.trans UInt32.le_iff_toNat_le))

theorem isCapital_iff_isUpper : isCapital c = true ↔ c.isUpper = true :=
  (Text.isCapital_iff c).trans isUpper_iff.symm

theorem isCapital_of_isLower (h : c.isLower = true) : isCapital c = false := by
  rw [isLower_iff] at h
  rw [Bool.eq_false_iff, Ne, isCapital_iff_isUpper, isUpper_iff]
  omega

theorem ascii_of_isAlphanum (h : c.isAlphanum = true) : c.toNat < 128 := by
  obtain hletter | hdigit := Bool.or_eq_true_iff.mp h
  · obtain hupper | hlower := Bool.or_eq_true_iff.mp hletter
    · have := isUpper_iff.mp hupper
      omega
    · have := isLower_iff.mp hlower
      omega
  · have := isDigit_iff.mp hdigit
    omega

/-- A letter or digit is no hyphen in lower case, and a capital comes back from its small letter. -/
theorem toLower_letter (h : c.isAlphanum = true) :
    c.toLower ≠ '-' ∧ if isCapital c then c.toLower.toUpper = c else c.toLower = c :=
  Text.forall_ascii (P := fun c => c.isAlphanum = true →
    c.toLower ≠ '-' ∧ if isCapital c then c.toLower.toUpper = c else c.toLower = c)
    (by decide +kernel) (ascii_of_isAlphanum h) h

end Letters

section Reading

theorem hyphenate_cons (c : Char) (rest : List Char) :
    hyphenate (c :: rest) = (if isCapital c then ['-', c] else [c]) ++ hyphenate rest := by
  rw [hyphenate, List.flatMap_cons, ← hyphenate]

/-- Hyphens in front of the capitals of a name lead back to the name. -/
theorem unhyphenate_hyphenate {cs : List Char} (h : ∀ c ∈ cs, c.isAlphanum = true) :
    unhyphenate ((hyphenate cs).map Char.toLower) = cs := by
  induction cs with
  | nil => rfl
  | cons c rest ih =>
    rw [List.forall_mem_cons] at h
    obtain ⟨hhyphen, hletter⟩ := toLower_letter h.1
    have hrest := ih h.2
    rw [hyphenate_cons, List.map_append]
    split at hletter
    · next hcapital =>
      have hminus : '-'.toLower = '-' := by decide
      rw [if_pos hcapital, List.map_cons, List.map_singleton, List.cons_append, List.cons_append,
        List.nil_append, hminus, unhyphenate, if_pos rfl, unhyphenate, if_neg hhyphen, hrest,
        capitalize, hletter]
    · next hcapital =>
      rw [if_neg hcapital, List.map_singleton, List.singleton_append, unhyphenate, if_neg hhyphen,
        hrest, hletter]

end Reading

section Naming

theorem hyphenate_append (cs more : List Char) :
    hyphenate (cs ++ more) = hyphenate cs ++ hyphenate more :=
  List.flatMap_append

theorem hyphenate_of_small {cs : List Char} (h : ∀ c ∈ cs, isCapital c = false) :
    hyphenate cs = cs := by
  induction cs with
  | nil => rfl
  | cons c rest ih =>
    rw [List.forall_mem_cons] at h
    rw [hyphenate_cons, h.1, ih h.2]
    rfl

/-- With a hyphen before its first character as well, a name that starts with a capital gets one more. -/
theorem hyphenate_eq_append (c : Char) (rest : List Char) :
    hyphenate (c :: rest) =
      (if isCapital c then ['-'] else []) ++ hyphenateAfterFirst (c :: rest) := by
  rw [hyphenate_cons, hyphenateAfterFirst]
  split <;> rfl

theorem mem_hyphenateAfterFirst {c : Char} {cs : List Char} (h : c ∈ hyphenateAfterFirst cs) :
    c = '-' ∨ c ∈ cs := by
  cases cs with
  | nil => cases h
  | cons first rest =>
    obtain rfl | h := List.mem_cons.mp h
    · exact .inr List.mem_cons_self
    · obtain ⟨d, hd, hc⟩ := List.mem_flatMap.mp h
      split at hc
      · obtain rfl | rfl := List.mem_pair.mp hc
        · exact .inl rfl
        · exact .inr (List.mem_cons_of_mem _ hd)
      · exact .inr (List.mem_cons_of_mem _ (List.mem_singleton.mp hc ▸ hd))

/-- The word of a vendor has one capital, its first letter, and is known in lower case. -/
theorem vendor_word {word : String} (h : word ∈ vendorNames) : ∃ first small,
    word.toList = first :: small ∧ isCapital first = true ∧ (∀ c ∈ small, isCapital c = false) ∧
      String.ofList (word.toList.map Char.toLower ++ ['-']) ∈ vendorWords := by
  obtain rfl | rfl | rfl : word = "Webkit" ∨ word = "Moz" ∨ word = "Ms" := by
    simpa [vendorNames] using h
  · exact ⟨'W', ['e', 'b', 'k', 'i', 't'], rfl, rfl, by simp [isCapital], by decide⟩
  · exact ⟨'M', ['o', 'z'], rfl, rfl, by simp [isCapital], by decide⟩
  · exact ⟨'M', ['s'], rfl, rfl, by simp [isCapital], by decide⟩

/-- The word of a vendor is set off from the capital behind it. -/
theorem hyphenateAfterFirst_vendor {word : String} (hword : word ∈ vendorNames) {c : Char}
    (hc : isCapital c = true) (rest : List Char) :
    hyphenateAfterFirst (word.toList ++ c :: rest) = word.toList ++ '-' :: c :: hyphenate rest := by
  obtain ⟨first, small, hfirst, -, hsmall, -⟩ := vendor_word hword
  have hcapital : hyphenate (c :: rest) = '-' :: c :: hyphenate rest := by
    rw [hyphenate_cons, if_pos hc]
    rfl
  rw [hfirst, List.cons_append, hyphenateAfterFirst, hyphenate_append, hyphenate_of_small hsmall,
    hcapital]
  rfl

theorem startsWithVendor_of_prefix {word : String} (hword : word ∈ vendorWords) {s : String}
    (h : word.toList <+: s.toList) : startsWithVendor s = true :=
  List.any_eq_true.mpr ⟨word, hword, List.isPrefixOf_iff_prefix.mpr h⟩

theorem startsWithVendor_lowered {word : String} (hword : word ∈ vendorNames) {c : Char}
    (hc : isCapital c = true) (rest : List Char) : startsWithVendor
      (String.ofList ((hyphenateAfterFirst (word.toList ++ c :: rest)).map Char.toLower)) = true := by
  obtain ⟨-, -, -, -, -, hvendor⟩ := vendor_word hword
  refine startsWithVendor_of_prefix hvendor ⟨(c :: hyphenate rest).map Char.toLower, ?_⟩
  rw [hyphenateAfterFirst_vendor hword hc, String.toList_ofList, String.toList_ofList]
  simp

theorem lower_hyphenateAfterFirst {cs : List Char} (h : ∀ c ∈ cs, c.isAlphanum = true) :
    Text.lower (String.ofList (hyphenateAfterFirst cs)) =
      String.ofList ((hyphenateAfterFirst cs).map Char.toLower) := by
  rw [Text.lower, String.toList_ofList, Text.lowerAfter_of_ascii]
  intro c hc
  obtain rfl | hc := mem_hyphenateAfterFirst hc
  · decide
  · exact ascii_of_isAlphanum (h c hc)

theorem propertyName_of_hyphen {name : String} (h : '-' ∈ name.toList) : propertyName name = name := by
  rw [propertyName, if_pos (by simpa using h)]

theorem propertyName_of_plain {name : String} (h : '-' ∉ name.toList) : propertyName name =
    if startsWithVendor (Text.lower (String.ofList (hyphenateAfterFirst name.toList))) &&
      (name.toList.head?.map isCapital).getD false then
      "-" ++ Text.lower (String.ofList (hyphenateAfterFirst name.toList))
    else Text.lower (String.ofList (hyphenateAfterFirst name.toList)) := by
  rw [propertyName, if_neg (by simpa using h)]

/-- The stylesheet's name of a style name has a hyphen before every small letter that was a capital. -/
theorem propertyName_of_styleName {name : String} (h : StyleName name) :
    propertyName name = String.ofList ((hyphenate name.toList).map Char.toLower) := by
  have hhyphen : '-' ∉ name.toList := fun hmem => absurd (h.plain _ hmem) (by decide)
  rw [propertyName_of_plain hhyphen, lower_hyphenateAfterFirst h.plain]
  obtain ⟨c, rest, hname, hsmall⟩ | ⟨word, hword, c, rest, hname, hupper⟩ := h.start
  · have hcapital : isCapital c = false := isCapital_of_isLower hsmall
    rw [hname, List.head?_cons, Option.map_some, Option.getD_some, hcapital, Bool.and_false,
      hyphenate_eq_append, hcapital]
    rfl
  · have hc : isCapital c = true := isCapital_iff_isUpper.mpr hupper
    obtain ⟨first, small, hfirst, hcapital, -⟩ := vendor_word hword
    have hhead : (name.toList.head?.map isCapital).getD false = true := by
      rw [hname, hfirst]
      exact hcapital
    have hwhole : hyphenate name.toList = '-' :: hyphenateAfterFirst name.toList := by
      rw [hname, hfirst, List.cons_append, hyphenate_eq_append, if_pos hcapital]
      rfl
    have hstarts := startsWithVendor_lowered hword hc rest
    rw [← hname] at hstarts
    rw [if_pos (by rw [hstarts, hhead]; rfl), hwhole, List.map_cons, String.ofList_cons]
    rfl

theorem propertyName_of_isSmall {s : String} (h : ∀ c ∈ s.toList, Text.IsSmall c)
    (hhyphen : '-' ∉ s.toList) : propertyName s = s := by
  have hcapital : ∀ c ∈ s.toList, isCapital c = false := fun c hc =>
    Bool.eq_false_iff.mpr (mt (Text.isCapital_iff c).mp (h c hc).not_capital)
  have hkept : hyphenateAfterFirst s.toList = s.toList := by
    cases hcs : s.toList with
    | nil => rfl
    | cons first rest =>
      rw [hcs, List.forall_mem_cons] at hcapital
      rw [hyphenateAfterFirst, hyphenate_of_small hcapital.2]
  have hhead : (s.toList.head?.map isCapital).getD false = false := by
    cases hcs : s.toList with
    | nil => rfl
    | cons first rest => exact hcapital first (hcs ▸ List.mem_cons_self)
  rw [propertyName_of_plain hhyphen, hkept, String.ofList_toList, Text.lower_of_isSmall h, hhead,
    Bool.and_false]
  rfl

/-- A name in a stylesheet is its own name there. -/
theorem propertyName_propertyName (name : String) :
    propertyName (propertyName name) = propertyName name := by
  by_cases hhyphen : '-' ∈ (propertyName name).toList
  · exact propertyName_of_hyphen hhyphen
  have hname : '-' ∉ name.toList := by
    intro hmem
    rw [propertyName_of_hyphen hmem] at hhyphen
    exact hhyphen hmem
  -- Without a hyphen nothing is left of the name but its lower case.
  have hlowered : propertyName name = Text.lower (String.ofList (hyphenateAfterFirst name.toList)) := by
    rw [propertyName_of_plain hname] at hhyphen ⊢
    split at hhyphen
    · exact absurd (by simp) hhyphen
    · next hvendor => rw [if_neg hvendor]
  rw [hlowered] at hhyphen ⊢
  exact propertyName_of_isSmall (fun _ => Text.isSmall_of_mem_lower) hhyphen

theorem camelName_propertyName {name : String} (h : StyleName name) :
    camelName (propertyName name) = name := by
  rw [propertyName_of_styleName h, camelName, String.toList_ofList, unhyphenate_hyphenate h.plain,
    String.ofList_toList]

end Naming

/-- Putting a name into a stylesheet twice is doing it once, two style names never share a name there,
and deleting each hyphen and upper-casing the letter after it leads back to the style name. -/
theorem propertyName_undone :
    (∀ name, propertyName (propertyName name) = propertyName name) ∧
      (∀ name other, StyleName name → StyleName other → propertyName name = propertyName other →
        name = other) ∧
      ∀ name, StyleName name → camelName (propertyName name) = name := by
  refine ⟨propertyName_propertyName, ?_, fun name => camelName_propertyName⟩
  intro name other hname hother heq
  rw [← camelName_propertyName hname, heq, camelName_propertyName hother]

theorem vendor_filters_undone :
    StyleName "msFilter" ∧ StyleName "MsFilter" ∧ propertyName "msFilter" ≠ propertyName "MsFilter" ∧
      camelName (propertyName "MsFilter") = "MsFilter" := by
  have hown : StyleName "msFilter" :=
    ⟨List.all_eq_true.mp (by decide), .inl ⟨'m', ['s', 'F', 'i', 'l', 't', 'e', 'r'], rfl, rfl⟩⟩
  have hvendor : StyleName "MsFilter" :=
    ⟨List.all_eq_true.mp (by decide),
      .inr ⟨"Ms", by simp [vendorNames], 'F', ['i', 'l', 't', 'e', 'r'], rfl, rfl⟩⟩
  obtain ⟨-, hapart, hback⟩ := propertyName_undone
  exact ⟨hown, hvendor, fun heq => absurd (hapart _ _ hown hvendor heq) (by decide),
    hback _ hvendor⟩

example : propertyName "WebkitBackdropFilter" = "-webkit-backdrop-filter" := by
  decide +kernel

end DesignTokens
