import DesignTokens.CommandLine.Run
import DesignTokens.Proofs.Text.Encoding
import DesignTokens.Proofs.Text.Pieces

/-!
# What is shown of a text

The lines in which a text is shown hold the characters of the text, some of which are left out, and
spaces in place of tabs. So what is shown of a text that can be encoded can be encoded as well.
-/

namespace DesignTokens

variable {s line : String} {p : Char → Bool}

theorem all_expandTabsFrom (hspace : p ' ' = true) {cs : List Char} (h : cs.all p = true)
    (column : Nat) : (expandTabsFrom column cs).all p = true := by
  induction cs generalizing column with
  | nil => rfl
  | cons c rest ih =>
    rw [List.all_cons, Bool.and_eq_true] at h
    rw [expandTabsFrom]
    split
    · rw [List.all_append, ih h.2, Bool.and_true, List.all_replicate, hspace, ite_self]
    · rw [List.all_cons, h.1, ih h.2]
      rfl

theorem isEncodable_of_mem_displayLines (h : Text.isEncodable s = true)
    (hline : line ∈ displayLines s) : Text.isEncodable line = true := by
  obtain ⟨piece, hpiece, rfl⟩ := List.mem_map.mp hline
  obtain ⟨cs, hcs, rfl⟩ := List.mem_map.mp hpiece
  rw [Text.isEncodable, expandTabs, String.toList_ofList, String.toList_ofList]
  refine all_expandTabsFrom (by decide) (List.all_eq_true.mpr fun c hc => ?_) 0
  have hkept := Text.subset_of_mem_splitList hcs hc
  rw [withoutControls, String.toList_ofList] at hkept
  exact List.all_eq_true.mp h c (List.mem_filter.mp hkept).1

theorem isEncodable_of_mem_notice {mark : Mark} (h : Text.isEncodable s = true)
    (hline : line ∈ notice mark s) : Text.isEncodable line = true := by
  refine isEncodable_of_mem_displayLines ?_ hline
  have hsign : Text.isEncodable (mark.sign ++ " ") = true := by
    cases mark <;> decide
  rw [Text.isEncodable_append, hsign, h]
  rfl

theorem isEncodable_outputOfLines {lines : List String}
    (h : ∀ line ∈ lines, Text.isEncodable line = true) :
    Text.isEncodable (outputOfLines lines) = true := by
  rw [outputOfLines, Text.isEncodable, Text.all_join (by rfl), List.all_map, List.all_eq_true]
  intro line hline
  have hbreak : Text.isEncodable "\n" = true := by decide
  rw [Function.comp_apply, ← Text.isEncodable, Text.isEncodable_append, h line hline, hbreak]
  rfl

end DesignTokens
