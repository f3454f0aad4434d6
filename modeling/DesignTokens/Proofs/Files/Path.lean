import DesignTokens.Files.Path
import DesignTokens.Proofs.Text.Encoding
import DesignTokens.Proofs.Text.Pieces

/-!
# Paths as text

A path that was read from a text has a known root and names without slashes. Such a path is read back
from its own text, and so are the paths above it and those one name below it.

## Main definitions

- `Path.Normal` — a path as it is read from a text
- `Path.below` — one name further down
- `Path.isAcceptable` — whether a text holds no character that the path of a file may not hold
- `Path.Above` — a path that leads to another one, or that one itself
-/

namespace DesignTokens

namespace Text

theorem split_join {names : List String} (hne : names ≠ [])
    (h : ∀ name ∈ names, '/' ∉ name.toList) : split '/' (join "/" names) = names := by
  have hpieces : ∀ cs ∈ names.map String.toList, '/' ∉ cs := by simpa using h
  have hjoined : (join "/" names).toList = ['/'].intercalate (names.map String.toList) :=
    String.toList_intercalate
  rw [split, hjoined, splitList_eq_splitOn,
    List.splitOn_intercalate '/' hpieces (by simpa using hne)]
  simp

theorem join_prefix_size (names more : List String) :
    (join "/" names).utf8ByteSize ≤ (join "/" (names ++ more)).utf8ByteSize := by
  by_cases hnames : names = []
  · simp [hnames, join]
  · by_cases hmore : more = []
    · simp [hmore]
    · rw [join, join, String.intercalate_append_of_ne_nil hnames hmore]
      simp only [String.utf8ByteSize_append]
      omega

end Text

namespace Path

variable {path dir : Path} {name : String}

theorem isName_iff : isName name = true ↔ name ≠ "" ∧ name ≠ "." ∧ '/' ∉ name.toList := by
  simp [isName, and_assoc]

/-- A path as it is read from a text. -/
structure Normal (path : Path) : Prop where
  root : path.root = "" ∨ path.root = "/" ∨ path.root = "//"
  names : ∀ name ∈ path.names, isName name = true

theorem rootOf_cases (cs : List Char) : rootOf cs = "" ∨ rootOf cs = "/" ∨ rootOf cs = "//" := by
  unfold rootOf
  split <;> simp

theorem normal_ofText (s : String) : (ofText s).Normal := by
  refine ⟨rootOf_cases _, fun name hname => ?_⟩
  obtain ⟨hpiece, hkept⟩ := List.mem_filter.mp hname
  obtain ⟨cs, hcs, rfl⟩ := List.mem_map.mp hpiece
  have hslash : '/' ∉ (String.ofList cs).toList := by
    simpa using Text.not_mem_of_mem_splitList hcs
  have hkept : String.ofList cs ≠ "" ∧ String.ofList cs ≠ "." := by simpa using hkept
  exact isName_iff.mpr ⟨hkept.1, hkept.2, hslash⟩

theorem namesOf_join {names : List String} (h : ∀ name ∈ names, isName name = true) :
    namesOf (Text.join "/" names) = names := by
  by_cases hnames : names = []
  · subst hnames
    rfl
  · have hslash : ∀ name ∈ names, '/' ∉ name.toList := fun name hname =>
      (isName_iff.mp (h name hname)).2.2
    rw [namesOf, Text.split_join hnames hslash, List.filter_eq_self]
    intro name hname
    have hname := isName_iff.mp (h name hname)
    simp [hname.1, hname.2.1]

theorem namesOf_slash (s : String) : namesOf ("/" ++ s) = namesOf s := by
  simp [namesOf, Text.split, Text.splitList]

/-- Names that are joined do not start with a slash. -/
theorem rootOf_join {names : List String} (h : ∀ name ∈ names, isName name = true) :
    rootOf (Text.join "/" names).toList = "" ∧ rootOf ('/' :: (Text.join "/" names).toList) = "/" ∧
      rootOf ('/' :: '/' :: (Text.join "/" names).toList) = "//" := by
  have hhead : ∀ rest, (Text.join "/" names).toList ≠ '/' :: rest := by
    intro rest hrest
    cases names with
    | nil => simp [Text.join] at hrest
    | cons name more =>
      obtain ⟨hempty, -, hslash⟩ := isName_iff.mp (h name List.mem_cons_self)
      obtain ⟨c, cs, hname⟩ := List.exists_cons_of_ne_nil (mt String.toList_eq_nil_iff.mp hempty)
      have hc : c = '/' := by
        rw [Text.join, String.toList_intercalate] at hrest
        cases more <;> simp_all
      simp [hname, hc] at hslash
  cases hjoined : (Text.join "/" names).toList with
  | nil => exact ⟨rfl, rfl, rfl⟩
  | cons c rest =>
    have hc : c ≠ '/' := fun hc => hhead rest (hc ▸ hjoined)
    simp [rootOf, hc]

/-- A path is read back from its own text. -/
theorem Normal.ofText_render (h : path.Normal) : ofText path.render = path := by
  obtain ⟨root, names⟩ := path
  obtain ⟨hroot, hnames⟩ := h
  have hjoined := rootOf_join hnames
  by_cases hempty : root = "" ∧ names = []
  · obtain ⟨rfl, rfl⟩ := hempty
    rfl
  · have hrender : render ⟨root, names⟩ = root ++ Text.join "/" names := by
      simp [render, hempty]
    rw [hrender, ofText]
    obtain rfl | rfl | rfl := hroot
    · simp [hjoined.1, namesOf_join hnames]
    · simp [hjoined.2.1, namesOf_slash, namesOf_join hnames]
    · have htwo : "//" ++ Text.join "/" names = "/" ++ ("/" ++ Text.join "/" names) := by
        rw [← String.append_assoc]
        rfl
      simp [htwo, hjoined.2.2, namesOf_slash, namesOf_join hnames]

/-- One name further down. -/
def below (dir : Path) (name : String) : Path :=
  ⟨dir.root, dir.names ++ [name]⟩

@[simp] theorem parent_below (dir : Path) (name : String) : (dir.below name).parent = dir := by
  simp [below, parent]

theorem below_parent (h : path.names ≠ []) : path.parent.below path.name = path := by
  simp [below, parent, name, List.getLast?_eq_some_getLast h, List.dropLast_append_getLast]

theorem name_mem (h : path.names ≠ []) : path.name ∈ path.names := by
  rw [name, List.getLast?_eq_some_getLast h]
  exact List.getLast_mem h

theorem Normal.below (h : dir.Normal) (hname : isName name = true) : (dir.below name).Normal := by
  refine ⟨h.root, fun other hother => ?_⟩
  obtain hother | rfl := List.mem_append.mp hother |>.imp_right List.mem_singleton.mp
  · exact h.names other hother
  · exact hname

theorem Normal.parent (h : path.Normal) : path.parent.Normal :=
  ⟨h.root, fun name hname => h.names name (List.mem_of_mem_dropLast hname)⟩

theorem join_eq_below (h : isName name = true) : dir.join name = dir.below name := by
  have hsingle : (Path.mk "" [name]).Normal := ⟨.inl rfl, by simpa using h⟩
  have hrender : render ⟨"", [name]⟩ = name := by simp [render, Text.join]
  have hread : ofText name = ⟨"", [name]⟩ := by
    simpa [hrender] using hsingle.ofText_render
  simp [join, hread, Path.below]

theorem withName?_eq_below (h : isName name = true) :
    path.withName? name = some (path.parent.below name) := by
  simp [withName?, h, Path.below, Path.parent]

/-- Whether no path of a file holds a character: the null character, and a surrogate that stands for
no octet. -/
def isRefused (c : Char) : Bool :=
  c = '\x00' || (Text.isSurrogate c && !Text.Utf8.isEscapedOctet c)

/-- Whether a text holds no character that the path of a file may not hold. -/
def isAcceptable (s : String) : Bool :=
  s.toList.all fun c => !isRefused c

theorem isAcceptable_iff {s : String} :
    isAcceptable s = true ↔ ∀ c, isRefused c = true → c ∉ s.toList := by
  simp only [isAcceptable, List.all_eq_true, Bool.not_eq_true']
  constructor
  · intro h c hc hmem
    simp [h c hmem] at hc
  · intro h c hmem
    by_contra hc
    exact h c (by simpa using hc) hmem

/-- The path of a file holds no null character and can be encoded. -/
theorem isAcceptable_render_iff : isAcceptable path.render = true ↔
    Text.Utf8.pathFault? path.render = none ∧ path.hasNull = false := by
  rw [Text.Utf8.pathFault?, Text.Utf8.faultFrom_eq_none_iff, hasNull, isAcceptable]
  simp only [isRefused, List.all_eq_true, Bool.not_or, Bool.and_eq_true, Bool.not_eq_true',
    decide_eq_false_iff_not, List.contains_eq_mem]
  exact ⟨fun h => ⟨fun c hc => (h c hc).2, fun hnull => (h _ hnull).1 rfl⟩,
    fun ⟨hencoded, hnull⟩ c hc => ⟨fun h => hnull (h ▸ hc), hencoded c hc⟩⟩

/-- A path is acceptable if its root and its names are. -/
theorem isAcceptable_render (path : Path) : isAcceptable path.render =
    (isAcceptable path.root && path.names.all isAcceptable) := by
  obtain ⟨root, names⟩ := path
  by_cases hempty : root = "" ∧ names = []
  · obtain ⟨rfl, rfl⟩ := hempty
    rfl
  · have hrender : render ⟨root, names⟩ = root ++ Text.join "/" names := by
      simp [render, hempty]
    rw [hrender, isAcceptable, String.toList_append, List.all_append, Text.all_join (by rfl)]
    rfl

theorem isAcceptable_name (h : isAcceptable path.render = true) (hnames : path.names ≠ []) :
    isAcceptable path.name = true := by
  rw [isAcceptable_render, Bool.and_eq_true, List.all_eq_true] at h
  exact h.2 _ (name_mem hnames)

theorem isAcceptable_below : isAcceptable (dir.below name).render =
    (isAcceptable dir.render && isAcceptable name) := by
  simp [isAcceptable_render, below, Bool.and_assoc]

/-- A path that leads to another one, or that one itself. -/
def Above (a b : Path) : Prop :=
  a.root = b.root ∧ a.names <+: b.names

namespace Above

variable {a b c : Path}

theorem refl (a : Path) : a.Above a :=
  ⟨rfl, List.prefix_rfl⟩

theorem trans (hab : a.Above b) (hbc : b.Above c) : a.Above c :=
  ⟨hab.1.trans hbc.1, hab.2.trans hbc.2⟩

theorem parent (a : Path) : a.parent.Above a :=
  ⟨rfl, List.dropLast_prefix _⟩

theorem isAcceptable (h : a.Above b) (hb : isAcceptable b.render = true) :
    isAcceptable a.render = true := by
  rw [isAcceptable_render, Bool.and_eq_true, List.all_eq_true] at hb ⊢
  exact ⟨h.1 ▸ hb.1, fun name hname => hb.2 name (h.2.subset hname)⟩

/-- Apart from the current directory, which has a name of its own, a path further up is shorter. -/
theorem size_le (h : a.Above b) : a.render.utf8ByteSize ≤ max 1 b.render.utf8ByteSize := by
  obtain ⟨root, names⟩ := a
  obtain ⟨root', names'⟩ := b
  obtain ⟨rfl, more, rfl⟩ := h
  by_cases hempty : root = "" ∧ names = []
  · obtain ⟨rfl, rfl⟩ := hempty
    exact le_max_left _ _
  · have hmore : ¬ (root = "" ∧ names ++ more = []) := by simp_all
    have hsize := Text.join_prefix_size names more
    simp only [render, Bool.and_eq_true, decide_eq_true_eq, List.isEmpty_iff, hempty, hmore, if_false,
      String.utf8ByteSize_append]
    omega

end Above

end Path

end DesignTokens
