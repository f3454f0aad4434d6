import DesignTokens.Proofs.Json.RoundTrip
import DesignTokens.Proofs.Text.Encoding
import DesignTokens.Proofs.Text.Pieces

/-!
# The characters of written documents

A document that is written over several lines has characters of its own, which are printable or break
a line, and characters of the texts in the document, which are no controls. So what holds of both
holds of every character of the text. A control of a text is escaped, a lone surrogate is not: no
carriage return is in a written document, and it can be encoded if the texts in it can.

## Main definitions

- `Document.texts` — the texts in a document, with the keys of its mappings
- `Json.isOwn` — the characters that a written document may hold whatever texts are in it
-/

namespace DesignTokens

namespace Document

mutual
/-- The texts in a document, with the keys of its mappings. -/
def texts : Document → List String
  | text s => [s]
  | list items => textsOfItems items
  | mapping entries => textsOfEntries entries
  | _ => []

def textsOfItems : List Document → List String
  | [] => []
  | item :: rest => texts item ++ textsOfItems rest

/-- The keys and the texts in the values. -/
def textsOfEntries : List (String × Document) → List String
  | [] => []
  | (key, value) :: rest => key :: texts value ++ textsOfEntries rest
end

theorem texts_list (items : List Document) : texts (list items) = items.flatMap texts := by
  rw [texts]
  induction items with
  | nil => rfl
  | cons item items ih => rw [textsOfItems, ih, List.flatMap_cons]

theorem texts_mapping (entries : Mapping Document) :
    texts (mapping entries) = entries.flatMap fun entry => entry.1 :: texts entry.2 := by
  rw [texts]
  induction entries with
  | nil => rfl
  | cons entry entries ih => rw [textsOfEntries, ih, List.flatMap_cons]

end Document

namespace Json

/-- The characters that a written document may hold whatever texts are in it. -/
def isOwn (c : Char) : Bool :=
  c = '\n' || (32 ≤ c.toNat && c.toNat < 127)

variable {p : Char → Bool} {d : Document} {s : String}

theorem all_of_own (hown : ∀ c, isOwn c = true → p c = true) {cs : List Char}
    (h : cs.all isOwn = true) : cs.all p = true :=
  List.all_eq_true.mpr fun c hc => hown c (List.all_eq_true.mp h c hc)

theorem isOwn_of_escaped {letter c : Char} (h : escaped? letter = some c) :
    isOwn letter = true := by
  unfold escaped? at h
  split at h
  case h_9 => cases h
  all_goals rfl

theorem isOwn_of_digit {c : Char} (h : Text.isAsciiDigit c = true) : isOwn c = true := by
  rw [Text.isAsciiDigit, Bool.and_eq_true, decide_eq_true_eq, decide_eq_true_eq] at h
  have hfirst : '0'.toNat ≤ c.toNat := h.1
  have hlast : c.toNat ≤ '9'.toNat := h.2
  have hzero : '0'.toNat = 48 := rfl
  have hnine : '9'.toNat = 57 := rfl
  simp only [isOwn, Bool.or_eq_true, Bool.and_eq_true, decide_eq_true_eq]
  omega

/-- A control is escaped, any other character is written as itself or escaped. -/
theorem all_quotedChar (hown : ∀ c, isOwn c = true → p c = true) {c : Char}
    (hc : 32 ≤ c.toNat → p c = true) : (quotedChar .unicode c).all p = true := by
  obtain ⟨letter, hquoted, -, hescaped⟩ | ⟨hcontrol, hquoted⟩ | ⟨-, -, hprint, hquoted⟩ :=
    quotedChar_cases c
  · have hletter := hown letter (isOwn_of_escaped hescaped)
    have hslash := hown '\\' rfl
    simp [hquoted, hletter, hslash]
  · have hescapes : ∀ n < 32, (unitEscape n).all isOwn = true := by decide
    exact hquoted ▸ all_of_own hown (hescapes _ hcontrol)
  · simpa [hquoted] using hc hprint

theorem all_quote (hown : ∀ c, isOwn c = true → p c = true)
    (hs : ∀ c ∈ s.toList, 32 ≤ c.toNat → p c = true) : (quote .unicode s).toList.all p = true := by
  have hchars : (s.toList.flatMap (quotedChar .unicode)).all p = true := by
    rw [List.all_flatMap, List.all_eq_true]
    exact fun c hc => all_quotedChar hown (hs c hc)
  simp only [quote, String.toList_ofList, List.all_cons, List.all_append, hchars, hown '"' rfl,
    List.all_nil, Bool.and_true]

theorem all_newline (hown : ∀ c, isOwn c = true → p c = true) (depth : Nat) :
    (newline depth).toList.all p = true := by
  rw [toList_newline, List.all_cons, hown '\n' rfl, List.all_replicate, hown ' ' rfl, ite_self]
  rfl

/-- Brackets around lines. -/
theorem all_bracketed (hown : ∀ c, isOwn c = true → p c = true) {opening closing : String}
    (depth : Nat) (hopening : opening.toList.all isOwn = true)
    (hclosing : closing.toList.all isOwn = true) {pieces : List String}
    (hpieces : ∀ piece ∈ pieces, piece.toList.all p = true) :
    (opening ++ newline (depth + 1) ++ Text.join ("," ++ newline (depth + 1)) pieces ++
      newline depth ++ closing).toList.all p = true := by
  have hseparator : ("," ++ newline (depth + 1)).toList.all p = true := by
    rw [toList_comma, List.all_cons, hown ',' rfl, all_newline hown]
    rfl
  have hjoin : (Text.join ("," ++ newline (depth + 1)) pieces).toList.all p = true := by
    rw [Text.all_join hseparator, List.all_eq_true]
    exact hpieces
  simp only [String.toList_append, List.all_append, all_of_own hown hopening,
    all_of_own hown hclosing, hjoin, all_newline hown, Bool.and_true]

theorem indentedItems_eq_map (depth : Nat) (items : List Document) :
    indentedItems depth items = items.map (indentedAt depth) := by
  induction items with
  | nil => rfl
  | cons item items ih => rw [indentedItems, ih, List.map_cons]

theorem indentedEntries_eq_map (depth : Nat) (entries : List (String × Document)) :
    indentedEntries depth entries = entries.map fun entry =>
      quote .unicode entry.1 ++ ": " ++ indentedAt depth entry.2 := by
  induction entries with
  | nil => rfl
  | cons entry entries ih => rw [indentedEntries, ih, List.map_cons]

/-- What holds of the characters that a document has of its own, and of those in its texts that are
no controls, holds of all characters of the written document. -/
theorem all_indentedAt (hown : ∀ c, isOwn c = true → p c = true) (h : d.Regular .named)
    (htexts : ∀ s ∈ d.texts, ∀ c ∈ s.toList, 32 ≤ c.toNat → p c = true) (depth : Nat) :
    (indentedAt depth d).toList.all p = true := by
  induction d using Document.byParts generalizing depth with
  | null =>
    have htext : indentedAt depth .null = "null" := by simp [indentedAt, scalar]
    exact htext ▸ all_of_own hown (by rfl)
  | bool b =>
    have htext : indentedAt depth (.bool b) = if b then "true" else "false" := by
      simp [indentedAt, scalar]
    cases b <;> exact htext ▸ all_of_own hown (by rfl)
  | int n =>
    have hdigits : (Nat.toDigits 10 n.natAbs).all isOwn = true :=
      List.all_eq_true.mpr fun _ hc => isOwn_of_digit (isAsciiDigit_of_mem_toDigits hc)
    rw [indentedAt, scalar, toList_toString_int]
    · split
      · rw [List.all_cons, hown '-' rfl, all_of_own hown hdigits]
        rfl
      · exact all_of_own hown hdigits
    all_goals simp
  | float x =>
    obtain ⟨-, htext⟩ | ⟨-, htext⟩ := indentedAt_float depth h <;>
      exact htext ▸ all_of_own hown (by rfl)
  | text s =>
    rw [indentedAt, scalar]
    · exact all_quote hown (htexts s (by simp [Document.texts]))
    all_goals simp
  | stamp t => exact absurd h (by simp [Document.Regular, LeafRule.named])
  | list items ih =>
    rw [Document.regular_list] at h
    rw [Document.texts_list] at htexts
    cases items with
    | nil =>
      have htext : indentedAt depth (.list []) = "[]" := by rw [indentedAt]
      exact htext ▸ all_of_own hown (by rfl)
    | cons first items =>
      rw [indentedAt, indentedItems_eq_map]
      refine all_bracketed hown depth (by rfl) (by rfl) fun piece hpiece => ?_
      obtain ⟨item, hmem, rfl⟩ := List.mem_map.mp hpiece
      exact ih item hmem (h item hmem)
        (fun s hs => htexts s (List.mem_flatMap.mpr ⟨item, hmem, hs⟩)) _
  | mapping entries ih =>
    have hentries := (Document.regular_mapping.mp h).2
    rw [Document.texts_mapping] at htexts
    cases entries with
    | nil =>
      have htext : indentedAt depth (.mapping []) = "\x7b\x7d" := by rw [indentedAt]
      exact htext ▸ all_of_own hown (by rfl)
    | cons first entries =>
      rw [indentedAt, indentedEntries_eq_map]
      refine all_bracketed hown depth (by rfl) (by rfl) fun piece hpiece => ?_
      obtain ⟨entry, hmem, rfl⟩ := List.mem_map.mp hpiece
      have hkey := all_quote hown
        (htexts entry.1 (List.mem_flatMap.mpr ⟨entry, hmem, List.mem_cons_self⟩))
      have hvalue := ih entry hmem (hentries entry hmem)
        (fun s hs => htexts s (List.mem_flatMap.mpr ⟨entry, hmem, List.mem_cons_of_mem _ hs⟩))
        (depth + 1)
      have hcolon : (": ".toList).all p = true := all_of_own hown (by rfl)
      simp only [String.toList_append, List.all_append, hkey, hcolon, hvalue, Bool.and_true]

/-- The text of a document holds no carriage return. -/
theorem return_not_mem_indentedAt (h : d.Regular .named) (depth : Nat) :
    '\r' ∉ (indentedAt depth d).toList := by
  have hall : (indentedAt depth d).toList.all (fun c => c ≠ '\r') = true := by
    refine all_indentedAt (fun c hc => ?_) h (fun _ _ c _ hc => ?_) depth
    all_goals
      rw [decide_eq_true_eq]
      rintro rfl
      exact absurd hc (by decide)
  exact fun hmem => absurd (List.all_eq_true.mp hall _ hmem) (by simp)

/-- The text of a document can be encoded if the texts in the document can. -/
theorem isEncodable_indented (h : d.Regular .named)
    (htexts : ∀ s ∈ d.texts, Text.isEncodable s = true) : Text.isEncodable (indented d) = true := by
  refine all_indentedAt (fun c hc => ?_) h (fun s hs c hc _ => ?_) 0
  · simp only [isOwn, Bool.or_eq_true, Bool.and_eq_true, decide_eq_true_eq] at hc
    have hsmall : c.toNat < Text.firstStandIn := by
      rw [Text.firstStandIn]
      obtain rfl | hprint := hc
      · decide
      · omega
    simpa [Text.isSurrogate] using hsmall
  · exact List.all_eq_true.mp (htexts s hs) c hc

end Json

end DesignTokens
