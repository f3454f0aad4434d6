import DesignTokens.Config.Standard
import DesignTokens.Proofs.Text.Pieces
import DesignTokens.Resolver
import Mathlib.Computability.Language

/-!
# The grammar of references

A reference is a dotted name: two or more segments of word characters and hyphens with a dot between
each two, where the first segment starts with an ASCII letter or an underscore. As a regular
expression this is `[A-Za-z_][\w-]*(\.[\w-]+)+`, and the end that is looked for behind it may be one
line break before the end of the text. So besides the dotted names, the dotted names with a line break
behind them are taken for references, and no other text is.

## Main definitions

- `DottedName` — the form of a reference, segment by segment
- `referencePattern`, `finalBreak` — the form of a reference as a regular expression, and the end of a
  text
-/

namespace DesignTokens

open scoped Computability

/-- The form of a reference: two or more segments with dots between them. -/
structure DottedName (s : String) : Prop where
  length : 2 ≤ (Text.split '.' s).length
  segments : ∀ piece ∈ Text.split '.' s,
    piece ≠ "" ∧ ∀ c ∈ piece.toList, Text.isWord c = true ∨ c = '-'
  start : ∃ piece c, (Text.split '.' s).head? = some piece ∧ piece.toList.head? = some c ∧
    (Text.isAsciiLetter c = true ∨ c = '_')

/-- The texts of one character that passes a test. -/
def oneOf (p : Char → Bool) : Language Char :=
  {cs | ∃ c, p c = true ∧ cs = [c]}

/-- `[\w-]+`. -/
def segmentPattern : Language Char :=
  oneOf isSegmentChar * (oneOf isSegmentChar)∗

/-- `\.[\w-]+`. -/
def dottedPattern : Language Char :=
  oneOf (· = '.') * segmentPattern

/-- `[A-Za-z_][\w-]*(\.[\w-]+)+`. -/
def referencePattern : Language Char :=
  oneOf isReferenceStart * (oneOf isSegmentChar)∗ * (dottedPattern * dottedPattern∗)

/-- What may stand behind the last character that an expression has to match: nothing, or one line
break. -/
def finalBreak : Language Char :=
  1 + oneOf (· = '\n')

section Patterns

variable {cs : List Char}

theorem mem_oneOf {p : Char → Bool} : cs ∈ oneOf p ↔ ∃ c, p c = true ∧ cs = [c] :=
  Iff.rfl

theorem mem_oneOf_mul {p : Char → Bool} {l : Language Char} :
    cs ∈ oneOf p * l ↔ ∃ c rest, p c = true ∧ rest ∈ l ∧ cs = c :: rest := by
  rw [Language.mem_mul]
  constructor
  · rintro ⟨_, ⟨c, hc, rfl⟩, rest, hrest, rfl⟩
    exact ⟨c, rest, hc, hrest, rfl⟩
  · rintro ⟨c, rest, hc, hrest, rfl⟩
    exact ⟨[c], ⟨c, hc, rfl⟩, rest, hrest, rfl⟩

theorem mem_oneOf_kstar {p : Char → Bool} : cs ∈ (oneOf p)∗ ↔ ∀ c ∈ cs, p c = true := by
  rw [Language.mem_kstar]
  constructor
  · rintro ⟨singles, rfl, hsingles⟩ c hc
    obtain ⟨single, hmem, hc⟩ := List.mem_flatten.mp hc
    obtain ⟨d, hd, rfl⟩ := hsingles single hmem
    exact List.mem_singleton.mp hc ▸ hd
  · intro h
    refine ⟨cs.map fun c => [c], ?_, fun single hmem => ?_⟩
    · rw [← List.flatMap_def, List.flatMap_singleton']
    · obtain ⟨c, hc, rfl⟩ := List.mem_map.mp hmem
      exact ⟨c, h c hc, rfl⟩

theorem mem_segmentPattern : cs ∈ segmentPattern ↔ isSegment cs = true := by
  rw [segmentPattern, mem_oneOf_mul, isSegment]
  cases cs with
  | nil => simp
  | cons c rest => simp [mem_oneOf_kstar]

theorem mem_dottedPattern :
    cs ∈ dottedPattern ↔ ∃ piece, isSegment piece = true ∧ cs = '.' :: piece := by
  simp [dottedPattern, mem_oneOf_mul, mem_segmentPattern]

/-- Repeating a dot with a segment behind it. -/
theorem mem_dottedPattern_kstar : cs ∈ dottedPattern∗ ↔
    ∃ pieces : List (List Char), (∀ piece ∈ pieces, isSegment piece = true) ∧
      cs = pieces.flatMap ('.' :: ·) := by
  constructor
  · intro h
    obtain ⟨parts, rfl, hparts⟩ := Language.mem_kstar.mp h
    clear h
    induction parts with
    | nil => exact ⟨[], by simp, rfl⟩
    | cons part parts ih =>
      obtain ⟨hpart, hrest⟩ := List.forall_mem_cons.mp hparts
      obtain ⟨piece, hpiece, rfl⟩ := mem_dottedPattern.mp hpart
      obtain ⟨pieces, hpieces, heq⟩ := ih hrest
      refine ⟨piece :: pieces, List.forall_mem_cons.mpr ⟨hpiece, hpieces⟩, ?_⟩
      rw [List.flatten_cons, heq, List.flatMap_cons]
  · rintro ⟨pieces, hpieces, rfl⟩
    refine Language.mem_kstar.mpr ⟨pieces.map ('.' :: ·), List.flatMap_def, fun part hmem => ?_⟩
    obtain ⟨piece, hpiece, rfl⟩ := List.mem_map.mp hmem
    exact mem_dottedPattern.mpr ⟨piece, hpieces piece hpiece, rfl⟩

theorem dot_not_mem_segment (h : isSegment cs = true) : '.' ∉ cs := by
  rw [isSegment, Bool.and_eq_true, List.all_eq_true] at h
  intro hdot
  exact absurd (h.2 _ hdot) (by decide)

theorem isSegmentChar_of_start {c : Char} (h : isReferenceStart c = true) :
    isSegmentChar c = true := by
  rw [isReferenceStart, Bool.or_eq_true, decide_eq_true_eq] at h
  obtain h | rfl := h
  · simp [isSegmentChar, Text.isWord, h]
  · decide

/-- A text has the form of a reference when it is put together from a first segment and others, each
behind a dot. -/
theorem areReferenceSegments_iff : areReferenceSegments (Text.splitList '.' cs) = true ↔
    ∃ c first piece pieces, isReferenceStart c = true ∧
      (∀ segment ∈ (c :: first) :: piece :: pieces, isSegment segment = true) ∧
      cs = c :: first ++ (piece :: pieces).flatMap ('.' :: ·) := by
  simp only [areReferenceSegments, Bool.and_eq_true, decide_eq_true_eq, List.all_eq_true]
  constructor
  · rintro ⟨⟨hlength, hsegments⟩, hstart⟩
    rcases hpieces : Text.splitList '.' cs with _ | ⟨_ | ⟨c, first⟩, _ | ⟨piece, pieces⟩⟩
    all_goals simp only [hpieces, List.length_nil, List.length_cons] at hlength hsegments hstart
    · omega
    · omega
    · simp at hstart
    · omega
    · exact ⟨c, first, piece, pieces, by simpa using hstart, hsegments,
        (Text.splitList_eq_cons_iff.mp hpieces).1⟩
  · rintro ⟨c, first, piece, pieces, hstart, hsegments, hcs⟩
    have hpieces : Text.splitList '.' cs = (c :: first) :: piece :: pieces :=
      Text.splitList_eq_cons_iff.mpr ⟨hcs, fun segment hmem => dot_not_mem_segment (hsegments _ hmem)⟩
    rw [hpieces]
    exact ⟨⟨by simp, hsegments⟩, by simpa using hstart⟩

theorem mem_referencePattern :
    cs ∈ referencePattern ↔ areReferenceSegments (Text.splitList '.' cs) = true := by
  rw [areReferenceSegments_iff, referencePattern, mul_assoc, mem_oneOf_mul]
  constructor
  · rintro ⟨c, _, hc, hrest, rfl⟩
    obtain ⟨first, hfirst, _, hdotted, rfl⟩ := Language.mem_mul.mp hrest
    obtain ⟨_, hone, _, hmore, rfl⟩ := Language.mem_mul.mp hdotted
    obtain ⟨piece, hpiece, rfl⟩ := mem_dottedPattern.mp hone
    obtain ⟨pieces, hpieces, rfl⟩ := mem_dottedPattern_kstar.mp hmore
    refine ⟨c, first, piece, pieces, hc, ?_, by simp⟩
    have hsegment : isSegment (c :: first) = true :=
      mem_segmentPattern.mp (mem_oneOf_mul.mpr ⟨c, first, isSegmentChar_of_start hc, hfirst, rfl⟩)
    exact List.forall_mem_cons.mpr ⟨hsegment, List.forall_mem_cons.mpr ⟨hpiece, hpieces⟩⟩
  · rintro ⟨c, first, piece, pieces, hc, hsegments, rfl⟩
    obtain ⟨hfirst, hpieces⟩ := List.forall_mem_cons.mp hsegments
    obtain ⟨hpiece, hpieces⟩ := List.forall_mem_cons.mp hpieces
    obtain ⟨_, _, -, hrun, heq⟩ := mem_oneOf_mul.mp (mem_segmentPattern.mpr hfirst)
    cases heq
    refine ⟨c, first ++ (piece :: pieces).flatMap ('.' :: ·), hc, ?_, rfl⟩
    have hdotted : (piece :: pieces).flatMap ('.' :: ·) ∈ dottedPattern * dottedPattern∗ :=
      Language.append_mem_mul (mem_dottedPattern.mpr ⟨piece, hpiece, rfl⟩)
        (mem_dottedPattern_kstar.mpr ⟨pieces, hpieces, rfl⟩)
    exact Language.append_mem_mul hrun hdotted

end Patterns

section Names

variable {s : String}

theorem isSegmentChar_iff {c : Char} :
    isSegmentChar c = true ↔ Text.isWord c = true ∨ c = '-' := by
  rw [isSegmentChar, Bool.or_eq_true, decide_eq_true_eq]

theorem isSegment_iff {cs : List Char} : isSegment cs = true ↔
    String.ofList cs ≠ "" ∧ ∀ c ∈ (String.ofList cs).toList, Text.isWord c = true ∨ c = '-' := by
  simp [isSegment, isSegmentChar_iff]

theorem startsName_iff {segments : List (List Char)} :
    ((segments.head?.bind List.head?).map isReferenceStart).getD false = true ↔
      ∃ piece c, (segments.map String.ofList).head? = some piece ∧ piece.toList.head? = some c ∧
        (Text.isAsciiLetter c = true ∨ c = '_') := by
  rcases segments with _ | ⟨_ | ⟨c, first⟩, rest⟩ <;> simp [isReferenceStart]

theorem dottedName_iff :
    DottedName s ↔ areReferenceSegments (Text.splitList '.' s.toList) = true := by
  simp only [areReferenceSegments, Bool.and_eq_true, decide_eq_true_eq, List.all_eq_true,
    isSegment_iff, startsName_iff]
  constructor
  · rintro ⟨hlength, hsegments, hstart⟩
    refine ⟨⟨by simpa [Text.split] using hlength, fun cs hmem => ?_⟩, hstart⟩
    exact hsegments _ (List.mem_map_of_mem hmem)
  · rintro ⟨⟨hlength, hsegments⟩, hstart⟩
    refine ⟨by simpa [Text.split] using hlength, fun piece hmem => ?_, hstart⟩
    obtain ⟨cs, hcs, rfl⟩ := List.mem_map.mp hmem
    exact hsegments cs hcs

/-- Every character of a dotted name belongs to a segment or is a dot. -/
theorem DottedName.mem_toList (h : DottedName s) {c : Char} (hc : c ∈ s.toList) :
    isSegmentChar c = true ∨ c = '.' := by
  obtain ⟨first, rest, hpieces⟩ :=
    List.exists_cons_of_ne_nil (Text.splitList_ne_nil '.' s.toList)
  have hchars : ∀ piece ∈ first :: rest, ∀ c ∈ piece, isSegmentChar c = true := by
    intro piece hmem c hc
    have hpiece : String.ofList piece ∈ Text.split '.' s := by
      rw [Text.split, hpieces]
      exact List.mem_map_of_mem hmem
    exact isSegmentChar_iff.mpr ((h.segments _ hpiece).2 c (by simpa using hc))
  rw [(Text.splitList_eq_cons_iff.mp hpieces).1, List.mem_append, List.mem_flatMap] at hc
  obtain hc | ⟨piece, hmem, hc⟩ := hc
  · exact .inl (hchars first List.mem_cons_self c hc)
  · obtain rfl | hc := List.mem_cons.mp hc
    · exact .inr rfl
    · exact .inl (hchars piece (List.mem_cons_of_mem _ hmem) c hc)

theorem DottedName.break_not_mem (h : DottedName s) : '\n' ∉ s.toList := by
  intro hbreak
  exact absurd (h.mem_toList hbreak) (by decide)

/-- A dotted name is a reference, and so is one with a line break behind it. -/
theorem isReference_iff :
    isReference s = true ↔ DottedName s ∨ ∃ name, DottedName name ∧ s = name ++ "\n" := by
  rw [isReference, dropFinalBreak]
  split
  · next hlast =>
    obtain ⟨cs, hcs⟩ := List.getLast?_eq_some_iff.mp hlast
    rw [hcs, List.dropLast_concat]
    constructor
    · intro h
      refine .inr ⟨String.ofList cs, dottedName_iff.mpr (by simpa using h), ?_⟩
      exact String.toList_injective (by simp [hcs])
    · rintro (h | ⟨name, hname, rfl⟩)
      · exact absurd (by simp [hcs]) h.break_not_mem
      · have hname' : name.toList = cs := by simpa using hcs
        exact hname' ▸ dottedName_iff.mp hname
  · next hlast =>
    refine dottedName_iff.symm.trans (or_iff_left ?_).symm
    rintro ⟨name, -, rfl⟩
    simp at hlast

theorem mem_finalBreak {cs : List Char} : cs ∈ finalBreak ↔ cs = [] ∨ cs = ['\n'] := by
  rw [finalBreak, Language.mem_add, Language.mem_one, mem_oneOf]
  simp

theorem isReference_iff_mem_pattern :
    isReference s = true ↔ s.toList ∈ referencePattern * finalBreak := by
  rw [isReference_iff, Language.mem_mul]
  constructor
  · rintro (h | ⟨name, hname, rfl⟩)
    · exact ⟨_, mem_referencePattern.mpr (dottedName_iff.mp h), [], mem_finalBreak.mpr (.inl rfl),
        List.append_nil _⟩
    · exact ⟨_, mem_referencePattern.mpr (dottedName_iff.mp hname), ['\n'],
        mem_finalBreak.mpr (.inr rfl), by simp⟩
  · rintro ⟨cs, hcs, ending, hending, heq⟩
    have hname : DottedName (String.ofList cs) :=
      dottedName_iff.mpr (by simpa using mem_referencePattern.mp hcs)
    obtain rfl | rfl := mem_finalBreak.mp hending
    · have hs : String.ofList cs = s := String.toList_injective (by simp [← heq])
      exact .inl (hs ▸ hname)
    · exact .inr ⟨_, hname, String.toList_injective (by simp [← heq])⟩

end Names

section Blanks

/-- The code points of white space. -/
def blankPoints : List Nat :=
  List.range' 9 5 ++ List.range' 28 5 ++ [0x85, 0xA0, 0x1680] ++ List.range' 0x2000 11 ++
    [0x2028, 0x2029, 0x202F, 0x205F, 0x3000]

theorem mem_blankPoints {c : Char} (h : Text.isBlank c = true) : c.toNat ∈ blankPoints := by
  simp only [Text.isBlank, Bool.or_eq_true, Bool.and_eq_true, decide_eq_true_eq, beq_iff_eq] at h
  simp only [blankPoints, List.mem_append, List.mem_range'_1, List.mem_cons, List.not_mem_nil,
    or_false]
  omega

theorem not_isSegmentChar_of_mem :
    ∀ n ∈ blankPoints, isSegmentChar (Char.ofNat n) = false ∧ Char.ofNat n ≠ '.' := by
  decide +kernel

/-- White space stands in no dotted name. -/
theorem DottedName.not_isBlank {s : String} (h : DottedName s) {c : Char} (hc : c ∈ s.toList) :
    Text.isBlank c = false := by
  by_contra hblank
  have hpoint := not_isSegmentChar_of_mem _ (mem_blankPoints (Bool.eq_true_of_not_eq_false hblank))
  rw [Char.ofNat_toNat] at hpoint
  obtain hsegment | hdot := h.mem_toList hc
  · rw [hpoint.1] at hsegment
    cases hsegment
  · exact hpoint.2 hdot

end Blanks

namespace Resolver

variable {r : Resolver} {s path space : String} {u : Unresolved}

theorem reason_of_walk_error {d : Document} {segments : List String}
    (h : r.walk path space d segments = .error u) : u.reason ≠ .malformed := by
  unfold walk literal at h
  repeat' split at h
  all_goals cases h
  all_goals simp [failure]

theorem reason_of_stored_error (h : r.stored s = .error u) (hempty : "" ∉ Text.split '.' s) :
    u.reason ≠ .malformed := by
  obtain ⟨space, segments, hsplit⟩ := List.exists_cons_of_ne_nil (Text.split_ne_nil '.' s)
  have hnamed : (space :: segments).contains "" = false := by
    rw [← hsplit]
    simpa using hempty
  simp only [stored, hsplit, hnamed, Bool.false_eq_true, if_false] at h
  split at h
  · cases h
    simp [failure]
  · exact reason_of_walk_error h

/-- A path is malformed only if one of its pieces is empty. -/
theorem reason_of_lookUp_error (h : r.lookUp s = .error u) (hempty : "" ∉ Text.split '.' s) :
    u.reason ≠ .malformed := by
  unfold lookUp at h
  cases hstored : r.stored s with
  | error u' =>
    rw [hstored] at h
    cases h
    exact reason_of_stored_error hstored hempty
  | ok value =>
    simp only [hstored, bind, Except.bind] at h
    -- The colour that a role refers to is looked up without another look at the form of its path.
    split at h
    · exact reason_of_walk_error h
    · cases h

end Resolver

/-- A line break behind a dotted name belongs to the last segment, so no segment is empty. -/
theorem empty_not_mem_split {s : String} (h : isReference s = true) : "" ∉ Text.split '.' s := by
  obtain hname | ⟨name, hname, rfl⟩ := isReference_iff.mp h
  · exact fun hempty => (hname.segments _ hempty).1 rfl
  · obtain ⟨c, first, piece, pieces, -, hsegments, hcs⟩ :=
      areReferenceSegments_iff.mp (dottedName_iff.mp hname)
    obtain ⟨init, last, hpieces⟩ :=
      (piece :: pieces).eq_nil_or_concat'.resolve_left (List.cons_ne_nil _ _)
    rw [hpieces] at hsegments hcs
    have hdots : ∀ segment ∈ (c :: first) :: (init ++ [last ++ ['\n']]), '.' ∉ segment := by
      intro segment hmem
      simp only [List.mem_cons, List.mem_append, List.not_mem_nil, or_false] at hmem
      obtain rfl | hmem | rfl := hmem
      · exact dot_not_mem_segment (hsegments _ List.mem_cons_self)
      · exact dot_not_mem_segment (hsegments segment (by simp [hmem]))
      · have hlast := dot_not_mem_segment (hsegments last (by simp))
        simpa using hlast
    have hsplit : Text.splitList '.' (name ++ "\n").toList =
        (c :: first) :: (init ++ [last ++ ['\n']]) :=
      Text.splitList_eq_cons_iff.mpr ⟨by simp [hcs], hdots⟩
    have hnamed : [] ∉ init := fun hmem => absurd (hsegments [] (by simp [hmem])) (by decide)
    rw [Text.split, hsplit]
    simpa using hnamed

/-- White space in a reference is a line break at its end. -/
theorem blank_of_isReference {s : String} (h : isReference s = true) {before after : List Char}
    {c : Char} (hs : s.toList = before ++ c :: after) (hblank : Text.isBlank c = true) :
    c = '\n' ∧ after = [] := by
  obtain hname | ⟨name, hname, rfl⟩ := isReference_iff.mp h
  · rw [hname.not_isBlank (by simp [hs])] at hblank
    cases hblank
  · rw [String.toList_append] at hs
    obtain rfl | ⟨init, d, rfl⟩ := after.eq_nil_or_concat'
    · exact ⟨(List.singleton_inj.mp (List.append_inj' hs rfl).2).symm, rfl⟩
    -- What stands before the last character stands in the name itself.
    · rw [← List.cons_append, ← List.append_assoc] at hs
      have hmem : c ∈ name.toList := by
        rw [(List.append_inj' hs rfl).1]
        simp
      rw [hname.not_isBlank hmem] at hblank
      cases hblank

/-- A reference is a dotted name, possibly with one line break behind it, which is what its regular
expression matches. So those that do not end in a line break are the dotted names. White space stands
in a reference as that line break only, and no reference is malformed where it is looked up. -/
theorem isReference_iff_dottedName (s : String) :
    (isReference s = true ↔ DottedName s ∨ ∃ name, DottedName name ∧ s = name ++ "\n") ∧
      (isReference s = true ↔ s.toList ∈ referencePattern * finalBreak) ∧
      (DottedName s ↔ isReference s = true ∧ s.toList.getLast? ≠ some '\n') ∧
      (isReference s = true →
        (∀ before c after, s.toList = before ++ c :: after → Text.isBlank c = true →
          c = '\n' ∧ after = []) ∧
        ∀ (r : Resolver) (u : Unresolved), r.lookUp s = .error u → u.reason ≠ .malformed) := by
  refine ⟨isReference_iff, isReference_iff_mem_pattern, ⟨fun h => ?_, fun ⟨h, hlast⟩ => ?_⟩,
    fun h => ⟨fun before c after hs hblank => ?_, fun r u hu => ?_⟩⟩
  · refine ⟨isReference_iff.mpr (.inl h), fun hlast => h.break_not_mem ?_⟩
    exact List.mem_of_getLast? hlast
  · refine (isReference_iff.mp h).resolve_right ?_
    rintro ⟨name, -, rfl⟩
    simp at hlast
  · exact blank_of_isReference h hs hblank
  · exact Resolver.reason_of_lookUp_error hu (empty_not_mem_split h)

/-- A name with hyphens, digits and a letter beyond ASCII is a reference. No colour has it, which is why
its lookup fails. -/
theorem named_size_reference : DottedName "colors.größe-2.50" ∧
    isReference "colors.größe-2.50" = true ∧
    "colors.größe-2.50".toList ∈ referencePattern * finalBreak ∧
    ∃ (r : Resolver) (u : Unresolved),
      Resolver.make Config.standard "light" (.text "strict") = .ok r ∧
        r.lookUp "colors.größe-2.50" = .error u ∧ u.reason = .missing ∧ u.reason ≠ .malformed := by
  have href : isReference "colors.größe-2.50" = true := by decide +kernel
  obtain ⟨-, hpattern, hname, himp⟩ := isReference_iff_dottedName "colors.größe-2.50"
  obtain ⟨r, u, hmake, hlook, hreason⟩ : ∃ (r : Resolver) (u : Unresolved),
      Resolver.make Config.standard "light" (.text "strict") = .ok r ∧
        r.lookUp "colors.größe-2.50" = .error u ∧ u.reason = .missing :=
    ⟨_, _, rfl, rfl, rfl⟩
  exact ⟨hname.mpr ⟨href, by decide⟩, href, hpattern.mp href, r, u, hmake, hlook, hreason,
    (himp href).2 r u hlook⟩

/-- The name of a colour with a line break behind it is a reference, though it is no dotted name and
holds white space, and it does not stand for the colour. -/
theorem exists_reference_with_break : isReference "colors.white\n" = true ∧
    ¬DottedName "colors.white\n" ∧ Text.isBlank '\n' = true ∧ '\n' ∈ "colors.white\n".toList ∧
    resolveReference Config.standard "light" (.text "strict") "colors.white" = .ok "#ffffff" ∧
    ∃ failure, resolveReference Config.standard "light" (.text "strict") "colors.white\n" =
      .error failure := by
  refine ⟨by decide, fun h => ?_, by decide, by decide, rfl, _, rfl⟩
  exact h.break_not_mem (by decide)

end DesignTokens
