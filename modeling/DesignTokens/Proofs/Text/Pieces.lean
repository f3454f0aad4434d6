import DesignTokens.Text.Pieces
import Mathlib.Data.List.Infix

/-!
# Texts and their pieces

The pieces of a text hold no separator, joining them gives the text back, and a text that is put
together around a separator has the pieces of both sides. A text is cut at its first separator.
-/

namespace DesignTokens

namespace Text

theorem splitList_eq_splitOn (separator : Char) (cs : List Char) :
    splitList separator cs = cs.splitOn separator := by
  induction cs with
  | nil => rfl
  | cons c rest ih =>
    rw [splitList, List.splitOn_cons_eq_if_modifyHead, ih]
    by_cases hc : c = separator
    · simp [hc]
    · cases hrest : rest.splitOn separator with
      | nil => exact absurd hrest (List.splitOn_ne_nil _ _)
      | cons piece more => simp [hc, consPiece]

theorem not_mem_of_mem_splitList {separator : Char} {cs piece : List Char}
    (h : piece ∈ splitList separator cs) : separator ∉ piece := by
  induction cs generalizing piece with
  | nil => simp_all [splitList]
  | cons c rest ih =>
    by_cases hc : c = separator
    · rw [splitList, if_pos hc] at h
      obtain rfl | h := List.mem_cons.mp h
      · exact List.not_mem_nil
      · exact ih h
    · rw [splitList, if_neg hc] at h
      cases hrest : splitList separator rest with
      | nil => exact absurd hrest (splitList_ne_nil _ _)
      | cons first more =>
        rw [hrest, consPiece] at h
        rw [hrest] at ih
        obtain rfl | h := List.mem_cons.mp h
        · have hfirst := ih List.mem_cons_self
          simp [Ne.symm hc, hfirst]
        · exact ih (List.mem_cons_of_mem _ h)

theorem not_mem_of_mem_split {separator : Char} {s piece : String} (h : piece ∈ split separator s) :
    separator ∉ piece.toList := by
  obtain ⟨cs, hcs, rfl⟩ := List.mem_map.mp h
  simpa using not_mem_of_mem_splitList hcs

theorem split_ne_nil (separator : Char) (s : String) : split separator s ≠ [] := by
  simp [split, splitList_ne_nil]

theorem splitList_append (separator : Char) (cs ds : List Char) :
    splitList separator (cs ++ separator :: ds) =
      splitList separator cs ++ splitList separator ds := by
  induction cs with
  | nil => simp [splitList]
  | cons c rest ih =>
    rw [List.cons_append, splitList, splitList, ih]
    split
    · rfl
    · cases hrest : splitList separator rest with
      | nil => exact absurd hrest (splitList_ne_nil _ _)
      | cons piece more => rfl

theorem splitList_of_not_mem {separator : Char} {cs : List Char} (h : separator ∉ cs) :
    splitList separator cs = [cs] := by
  induction cs with
  | nil => rfl
  | cons c rest ih =>
    rw [List.mem_cons, not_or] at h
    rw [splitList, if_neg (Ne.symm h.1), ih h.2, consPiece]

/-- The pieces of a text are those texts without a separator that it is put together from. -/
theorem splitList_eq_cons_iff {separator : Char} {cs first : List Char} {rest : List (List Char)} :
    splitList separator cs = first :: rest ↔
      cs = first ++ rest.flatMap (separator :: ·) ∧
        ∀ piece ∈ first :: rest, separator ∉ piece := by
  constructor
  · intro h
    refine ⟨?_, fun piece hmem => not_mem_of_mem_splitList (h ▸ hmem)⟩
    induction cs generalizing first rest with
    | nil =>
      cases h
      rfl
    | cons c cs ih =>
      obtain ⟨piece, more, hpieces⟩ := List.exists_cons_of_ne_nil (splitList_ne_nil separator cs)
      have hcs := ih hpieces
      rw [splitList, hpieces] at h
      split at h
      · next hc =>
        cases h
        rw [hc, hcs, List.flatMap_cons, List.nil_append, List.cons_append]
      · cases h
        rw [hcs, List.cons_append]
  · rintro ⟨rfl, hpieces⟩
    induction rest generalizing first with
    | nil => simpa using splitList_of_not_mem (hpieces first List.mem_cons_self)
    | cons piece more ih =>
      obtain ⟨hfirst, hmore⟩ := List.forall_mem_cons.mp hpieces
      rw [List.flatMap_cons, List.cons_append, splitList_append, splitList_of_not_mem hfirst,
        ih hmore, List.singleton_append]

theorem subset_of_mem_splitList {separator : Char} {cs piece : List Char}
    (h : piece ∈ splitList separator cs) : piece ⊆ cs := by
  obtain ⟨first, rest, hpieces⟩ := List.exists_cons_of_ne_nil (splitList_ne_nil separator cs)
  rw [hpieces] at h
  rw [(splitList_eq_cons_iff.mp hpieces).1]
  intro c hc
  obtain rfl | hrest := List.mem_cons.mp h
  · exact List.mem_append_left _ hc
  · exact List.mem_append_right _
      (List.mem_flatMap.mpr ⟨piece, hrest, List.mem_cons_of_mem _ hc⟩)

theorem split_of_not_mem {separator : Char} {s : String} (h : separator ∉ s.toList) :
    split separator s = [s] := by
  rw [split, splitList_of_not_mem h, List.map_singleton, String.ofList_toList]

/-- A text around a separator has the pieces before it and those behind it. -/
theorem split_append {separator : Char} {around : String} (h : around.toList = [separator])
    (s t : String) : split separator (s ++ around ++ t) = split separator s ++ split separator t := by
  have hlist : (s ++ around ++ t).toList = s.toList ++ separator :: t.toList := by simp [h]
  rw [split, hlist, splitList_append, List.map_append]
  rfl

theorem split_dot (s t : String) : split '.' (s ++ "." ++ t) = split '.' s ++ split '.' t :=
  split_append rfl s t

theorem join_split_dot (s : String) : join "." (split '.' s) = s := by
  have hlist : (join "." (split '.' s)).toList = s.toList := by
    have hpieces : (split '.' s).map String.toList = s.toList.splitOn '.' := by
      simp [split, splitList_eq_splitOn]
    rw [join, String.toList_intercalate, hpieces]
    exact List.intercalate_splitOn '.'
  exact String.toList_injective hlist

/-- Joined pieces in front of others are joined with them. -/
theorem join_join_cons (separator : String) {pieces : List String} (h : pieces ≠ [])
    (rest : List String) : join separator (join separator pieces :: rest) =
      join separator (pieces ++ rest) := by
  cases rest with
  | nil => simp [join]
  | cons next more =>
    rw [join, join, join, String.intercalate_cons_cons,
      String.intercalate_append_of_ne_nil h (List.cons_ne_nil _ _)]

/-- Joined pieces between others are joined with them. -/
theorem join_append_join_cons (separator : String) (first : List String) {pieces : List String}
    (h : pieces ≠ []) (rest : List String) :
    join separator (first ++ join separator pieces :: rest) =
      join separator (first ++ (pieces ++ rest)) := by
  cases first with
  | nil => exact join_join_cons separator h rest
  | cons piece more =>
    have hrest : pieces ++ rest ≠ [] := List.append_ne_nil_of_left_ne_nil h rest
    have hjoined := join_join_cons separator h rest
    unfold join at hjoined ⊢
    rw [String.intercalate_append_of_ne_nil (List.cons_ne_nil _ _) (List.cons_ne_nil _ _), hjoined,
      String.intercalate_append_of_ne_nil (List.cons_ne_nil _ _) hrest]

theorem all_join {separator : String} {p : Char → Bool} (hseparator : separator.toList.all p = true)
    (pieces : List String) : (join separator pieces).toList.all p =
      pieces.all fun piece => piece.toList.all p := by
  induction pieces with
  | nil => simp [join]
  | cons piece rest ih =>
    rw [join] at ih ⊢
    cases rest with
    | nil => simp
    | cons next more =>
      rw [String.intercalate_cons_cons, String.toList_append, String.toList_append,
        List.all_append, List.all_append, hseparator, ih, Bool.and_true]
      rfl

theorem join_eq_empty_iff {separator : String} {pieces : List String}
    (h : ∀ piece ∈ pieces, piece ≠ "") : join separator pieces = "" ↔ pieces = [] := by
  cases pieces with
  | nil => simp [join]
  | cons piece rest =>
    have hpiece := h piece List.mem_cons_self
    cases rest with
    | nil => simpa [join] using hpiece
    | cons next more => simp [join, String.intercalate_cons_cons, hpiece]

theorem substitute_append (old : Char) (new s t : String) :
    substitute old new (s ++ t) = substitute old new s ++ substitute old new t := by
  rw [substitute, substitute, substitute, ← String.ofList_append, String.toList_append,
    substituteList, List.flatMap_append]
  rfl

theorem substitute_of_not_mem {old : Char} {s : String} (h : old ∉ s.toList) (new : String) :
    substitute old new s = s := by
  have hlist : ∀ cs : List Char, old ∉ cs → substituteList old new.toList cs = cs := by
    intro cs hcs
    induction cs with
    | nil => rfl
    | cons c rest ih =>
      rw [List.mem_cons, not_or] at hcs
      rw [substituteList, List.flatMap_cons, if_neg (Ne.symm hcs.1), ← substituteList, ih hcs.2]
      rfl
  rw [substitute, hlist _ h, String.ofList_toList]

theorem cut_of_not_mem {separator : Char} {s : String} (h : separator ∉ s.toList) :
    cut separator s = (s, none) := by
  have hpass : ∀ c ∈ s.toList, decide (c ≠ separator) = true := by
    intro c hc
    simpa using ne_of_mem_of_not_mem hc h
  have hrest : s.toList.dropWhile (· ≠ separator) = [] := by
    rw [← List.append_nil s.toList, List.dropWhile_append_of_pos hpass, List.dropWhile_nil]
  simp only [cut, hrest]

/-- A text is cut at the first separator. -/
theorem cut_append {separator : Char} {around before : String} (h : around.toList = [separator])
    (hbefore : separator ∉ before.toList) (after : String) :
    cut separator (before ++ around ++ after) = (before, some after) := by
  have hlist : (before ++ around ++ after).toList = before.toList ++ separator :: after.toList := by
    simp [h]
  have hpass : ∀ c ∈ before.toList, decide (c ≠ separator) = true := by
    intro c hc
    simpa using ne_of_mem_of_not_mem hc hbefore
  have hfirst : (before.toList ++ separator :: after.toList).takeWhile (· ≠ separator) =
      before.toList := by
    rw [List.takeWhile_append_of_pos hpass, List.takeWhile_cons_of_neg (by simp), List.append_nil]
  have hrest : (before.toList ++ separator :: after.toList).dropWhile (· ≠ separator) =
      separator :: after.toList := by
    rw [List.dropWhile_append_of_pos hpass, List.dropWhile_cons_of_neg (by simp)]
  simp only [cut, hlist, hfirst, hrest, String.ofList_toList]

theorem exists_append_of_mem {separator : Char} {around s : String} (h : around.toList = [separator])
    (hmem : separator ∈ s.toList) :
    ∃ before after, s = before ++ around ++ after ∧ separator ∉ before.toList := by
  obtain ⟨before, after, hs, hbefore⟩ := List.eq_append_cons_of_mem hmem
  refine ⟨String.ofList before, String.ofList after, String.toList_injective ?_, by simpa using hbefore⟩
  simp [hs, h]

/-! A text with a hyphen in it is taken apart in one way if one side of the hyphen holds none. -/

theorem split_hyphen (s t : String) : split '-' (s ++ "-" ++ t) = split '-' s ++ split '-' t :=
  split_append rfl s t

theorem hyphen_inj_left {s s' t t' : String} (h : '-' ∉ s.toList) (h' : '-' ∉ s'.toList)
    (heq : s ++ "-" ++ t = s' ++ "-" ++ t') : s = s' ∧ t = t' := by
  -- What stands before the hyphen is the first piece of either text.
  have hpieces := congrArg (split '-') heq
  rw [split_hyphen, split_hyphen, split_of_not_mem h, split_of_not_mem h'] at hpieces
  obtain rfl : s = s' := (List.cons.inj hpieces).1
  exact ⟨rfl, (String.append_right_inj _).mp heq⟩

theorem hyphen_inj_right {s s' t t' : String} (h : '-' ∉ t.toList) (h' : '-' ∉ t'.toList)
    (heq : s ++ "-" ++ t = s' ++ "-" ++ t') : s = s' ∧ t = t' := by
  -- What stands behind the hyphen is the last piece of either text.
  have hpieces := congrArg (split '-') heq
  rw [split_hyphen, split_hyphen, split_of_not_mem h, split_of_not_mem h'] at hpieces
  obtain rfl : t = t' := (List.cons.inj (List.append_inj_right' hpieces rfl)).1
  rw [String.append_assoc, String.append_assoc] at heq
  exact ⟨(String.append_left_inj _).mp heq, rfl⟩

end Text

end DesignTokens
