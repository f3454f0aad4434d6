import DesignTokens.CommandLine.Assignment
import DesignTokens.Proofs.Document.Reassociation
import DesignTokens.Proofs.Text.Pieces

/-!
# Assignments and merging

An assignment has a path before its first equals sign and a value behind it. Making assignments one
after another is laying the documents of their paths over each other, and it stops at the first text
that has no path. So at every path the last assignment decides that goes to the path, through it or to
a place above it.

## Main definitions

- `Assignment.WrittenAs`, `Pathless` — a text that is an assignment, and one that has no path
- `pathDocument`, `Assignment.document` — the document that holds one value only, at a path
- `Assignment.Meets` — an assignment goes to a path, through it or to a place above it
-/

namespace DesignTokens

/-- A text is an assignment: the dotted path before the first equals sign, without blanks around it
and without empty keys, and the value behind the sign without blanks around it. -/
def Assignment.WrittenAs (a : Assignment) (s : String) : Prop :=
  ∃ path value, s = path ++ "=" ++ value ∧ '=' ∉ path.toList ∧
    a.keys = (Text.split '.' (Text.strip path)).filter (· ≠ "") ∧ a.keys ≠ [] ∧
    a.value = Text.strip value

/-- A text has no equals sign, or no key before the first one. -/
def Pathless (s : String) : Prop :=
  '=' ∉ s.toList ∨ ∃ path value, s = path ++ "=" ++ value ∧ '=' ∉ path.toList ∧
    ∀ key ∈ Text.split '.' (Text.strip path), key = ""

/-- The document that holds a value at a path of keys, and nothing else. -/
def pathDocument (value : Document) : List String → Document
  | [] => value
  | key :: rest => .mapping [(key, pathDocument value rest)]

/-- The entries of the document that holds a value at a path. -/
def pathEntries (value : Document) : List String → Mapping Document
  | [] => []
  | key :: rest => [(key, pathDocument value rest)]

/-- The document that holds the value of an assignment at its path, and nothing else. -/
def Assignment.document (a : Assignment) : Mapping Document :=
  pathEntries (.text a.value) a.keys

/-- An assignment goes to a path, through it or to a place above it. -/
def Assignment.Meets (a : Assignment) (path : List String) : Prop :=
  a.keys <+: path ∨ path <+: a.keys

section Written

variable {s : String} {a : Assignment} {failure : Failure}

theorem pathKeys_eq_nil_iff {path : String} :
    pathKeys path = [] ↔ ∀ key ∈ Text.split '.' (Text.strip path), key = "" := by
  simp [pathKeys, List.filter_eq_nil_iff]

theorem ofText_of_cut {path value : String} (hpath : '=' ∉ path.toList) :
    Assignment.ofText (path ++ "=" ++ value) =
      if (pathKeys path).isEmpty then .error (.badAssignment (path ++ "=" ++ value))
      else .ok ⟨pathKeys path, Text.strip value⟩ := by
  rw [Assignment.ofText, Text.cut_append rfl hpath]

theorem ofText_of_not_mem (h : '=' ∉ s.toList) :
    Assignment.ofText s = .error (.badAssignment s) := by
  rw [Assignment.ofText, Text.cut_of_not_mem h]

/-- A text is an assignment, or it has no path. -/
theorem ofText_cases (s : String) :
    (∃ a : Assignment, a.WrittenAs s ∧ Assignment.ofText s = .ok a) ∨
      Pathless s ∧ Assignment.ofText s = .error (.badAssignment s) := by
  by_cases hequals : '=' ∈ s.toList
  · have hsign : "=".toList = ['='] := rfl
    obtain ⟨path, value, rfl, hpath⟩ := Text.exists_append_of_mem hsign hequals
    rw [ofText_of_cut hpath]
    cases hkeys : pathKeys path with
    | nil => exact .inr ⟨.inr ⟨path, value, rfl, hpath, pathKeys_eq_nil_iff.mp hkeys⟩, rfl⟩
    | cons key rest =>
      exact .inl ⟨_, ⟨path, value, rfl, hpath, hkeys.symm, List.cons_ne_nil _ _, rfl⟩, rfl⟩
  · exact .inr ⟨.inl hequals, ofText_of_not_mem hequals⟩

theorem ofText_eq_ok_iff : Assignment.ofText s = .ok a ↔ a.WrittenAs s := by
  constructor
  · intro h
    obtain ⟨other, hwritten, hok⟩ | ⟨-, herror⟩ := ofText_cases s
    · cases hok.symm.trans h
      exact hwritten
    · cases herror.symm.trans h
  · rintro ⟨path, value, rfl, hpath, hkeys, hne, hvalue⟩
    have hpathKeys : pathKeys path = a.keys := hkeys.symm
    rw [ofText_of_cut hpath, hpathKeys, if_neg (by simpa using hne), ← hvalue]

theorem ofText_eq_error_iff :
    Assignment.ofText s = .error failure ↔ Pathless s ∧ failure = .badAssignment s := by
  constructor
  · intro h
    obtain ⟨a, -, hok⟩ | ⟨hpathless, herror⟩ := ofText_cases s
    · cases hok.symm.trans h
    · exact ⟨hpathless, Except.error.inj (h.symm.trans herror)⟩
  · rintro ⟨hequals | ⟨path, value, rfl, hpath, hkeys⟩, rfl⟩
    · exact ofText_of_not_mem hequals
    · rw [ofText_of_cut hpath, pathKeys_eq_nil_iff.mpr hkeys]
      rfl

theorem Assignment.WrittenAs.not_pathless (h : a.WrittenAs s) : ¬Pathless s := fun hpathless =>
  nomatch (ofText_eq_ok_iff.mpr h).symm.trans (ofText_eq_error_iff.mpr ⟨hpathless, rfl⟩)

end Written

section Applied

variable {assignments : List String} {entries doc : Mapping Document} {failure : Failure}

theorem applyAssignments_eq_ok_iff : applyAssignments entries assignments = .ok doc ↔
    ∃ as, List.Forall₂ Assignment.WrittenAs as assignments ∧
      doc = as.foldl Assignment.apply entries := by
  induction assignments generalizing entries with
  | nil => simp [applyAssignments, eq_comm]
  | cons s rest ih =>
    rw [applyAssignments, bind_eq_ok_iff]
    simp only [ofText_eq_ok_iff, ih, List.forall₂_cons_right_iff]
    constructor
    · rintro ⟨a, ha, as, has, rfl⟩
      exact ⟨a :: as, ⟨a, as, ha, has, rfl⟩, rfl⟩
    · rintro ⟨_, ⟨a, as, ha, has, rfl⟩, rfl⟩
      exact ⟨a, ha, as, has, rfl⟩

/-- The first text without a path stops the assignments. -/
theorem applyAssignments_eq_error_iff : applyAssignments entries assignments = .error failure ↔
    ∃ before s after, assignments = before ++ s :: after ∧ (∀ t ∈ before, ¬Pathless t) ∧
      Pathless s ∧ failure = .badAssignment s := by
  induction assignments generalizing entries with
  | nil => simp [applyAssignments]
  | cons s rest ih =>
    rw [applyAssignments]
    obtain ⟨a, hwritten, hok⟩ | ⟨hpathless, herror⟩ := ofText_cases s
    · have hnot := hwritten.not_pathless
      rw [hok]
      refine ih.trans ⟨?_, ?_⟩
      · rintro ⟨before, t, after, rfl, hbefore, ht, rfl⟩
        exact ⟨s :: before, t, after, rfl, List.forall_mem_cons.mpr ⟨hnot, hbefore⟩, ht, rfl⟩
      · rintro ⟨_ | ⟨first, before⟩, t, after, heq, hbefore, ht, rfl⟩
        · cases heq
          exact absurd ht hnot
        · cases heq
          exact ⟨before, t, after, rfl, (List.forall_mem_cons.mp hbefore).2, ht, rfl⟩
    · rw [herror]
      constructor
      · rintro ⟨⟩
        exact ⟨[], s, rest, rfl, by simp, hpathless, rfl⟩
      · rintro ⟨_ | ⟨first, before⟩, t, after, heq, hbefore, ht, rfl⟩
        · cases heq
          rfl
        · cases heq
          exact absurd hpathless (hbefore s List.mem_cons_self)

end Applied

section Merged

variable {entries upper : Mapping Document} {value : Document} {keys path : List String}

/-- A mapping laid over a value is merged with the entries that a path through the value finds. -/
theorem overlay_entriesBelow (h : (Mapping.keys upper).Nodup) (old : Option Document) :
    overlay old (.mapping upper) = .mapping (deepMerge (entriesBelow old) upper) := by
  by_cases hold : ∃ base, old = some (.mapping base)
  · obtain ⟨base, rfl⟩ := hold
    exact overlay_mapping base upper
  · have hnone : entriesBelow old = [] := by
      rcases old with _ | (_ | _ | _ | _ | _ | _ | _ | entries)
      all_goals try rfl
      exact absurd ⟨entries, rfl⟩ hold
    rw [overlay_over_not_mapping (not_exists.mp hold), hnone, deepMerge_nil_left h]

/-- Setting the value at a path is laying the document of the path over the entries. -/
theorem setPath_eq_deepMerge (hvalue : value.isMapping = false) (entries : Mapping Document)
    (keys : List String) : setPath entries value keys = deepMerge entries (pathEntries value keys) := by
  induction keys generalizing entries with
  | nil => rw [setPath, pathEntries, deepMerge_nil]
  | cons key rest ih =>
    rw [pathEntries, deepMerge_cons, deepMerge_nil]
    cases rest with
    | nil =>
      rw [setPath, pathDocument, overlay_of_not_mapping _ (Document.isMapping_eq_false_iff.mp hvalue)]
    | cons next rest =>
      rw [setPath, ih, pathDocument, overlay_entriesBelow (by simp)]
      rfl

theorem apply_eq_deepMerge (entries : Mapping Document) (a : Assignment) :
    a.apply entries = deepMerge entries a.document :=
  setPath_eq_deepMerge rfl entries a.keys

/-- Below a value, a path finds what it finds below the entries of the value. -/
theorem at?_entriesBelow (old : Option Document) (hpath : path ≠ []) :
    (Document.mapping (entriesBelow old)).at? path = old.bind fun d => d.at? path := by
  obtain ⟨key, rest, rfl⟩ := List.exists_cons_of_ne_nil hpath
  rcases old with _ | (_ | _ | _ | _ | _ | _ | _ | entries)
  all_goals rfl

/-- The value stands where it was set. -/
theorem at?_setPath (hkeys : keys ≠ []) (entries : Mapping Document) :
    (Document.mapping (setPath entries value keys)).at? keys = some value := by
  induction keys generalizing entries with
  | nil => exact absurd rfl hkeys
  | cons key rest ih =>
    cases rest with
    | nil => simp [setPath]
    | cons next rest =>
      rw [setPath, Document.at?_cons, Document.get?_mapping, Mapping.find?_set_self,
        Option.bind_some, ih (List.cons_ne_nil _ _)]

/-- Where neither of two paths leads through the other, setting a value at one leaves the other as it
is. -/
theorem at?_setPath_of_apart (hkeys : ¬keys <+: path) (hpath : ¬path <+: keys)
    (entries : Mapping Document) :
    (Document.mapping (setPath entries value keys)).at? path = (Document.mapping entries).at? path := by
  induction keys generalizing entries path with
  | nil => exact absurd List.nil_prefix hkeys
  | cons key rest ih =>
    have hne : path ≠ [] := fun hnil => hpath (hnil ▸ List.nil_prefix)
    obtain ⟨other, more, rfl⟩ := List.exists_cons_of_ne_nil hne
    rw [Document.at?_cons, Document.at?_cons, Document.get?_mapping, Document.get?_mapping]
    by_cases hkey : key = other
    · subst hkey
      rw [List.cons_prefix_cons, and_iff_right rfl] at hkeys hpath
      cases rest with
      | nil => exact absurd List.nil_prefix hkeys
      | cons next rest =>
        have hmore : more ≠ [] := fun hnil => hpath (hnil ▸ List.nil_prefix)
        rw [setPath, Mapping.find?_set_self, Option.bind_some, ih hkeys hpath,
          at?_entriesBelow _ hmore]
    · cases rest <;> rw [setPath, Mapping.find?_set_of_ne _ _ hkey]

/-- Assignments that do not meet a path leave it as it is. -/
theorem at?_foldl_apply {as : List Assignment} (h : ∀ a ∈ as, ¬a.Meets path)
    (entries : Mapping Document) :
    (Document.mapping (as.foldl Assignment.apply entries)).at? path =
      (Document.mapping entries).at? path := by
  induction as generalizing entries with
  | nil => rfl
  | cons a rest ih =>
    obtain ⟨ha, hrest⟩ := List.forall_mem_cons.mp h
    obtain ⟨hkeys, hpath⟩ := not_or.mp ha
    rw [List.foldl_cons, ih hrest, Assignment.apply, at?_setPath_of_apart hkeys hpath]

/-- The last of the assignments that meet a path decides what stands there. -/
theorem at?_foldl_of_last {before after : List Assignment} {a : Assignment} (hkeys : a.keys ≠ [])
    (hafter : ∀ later ∈ after, ¬later.Meets path)
    (hdoc : entries = (before ++ a :: after).foldl Assignment.apply []) :
    (path = a.keys → (Document.mapping entries).at? path = some (.text a.value)) ∧
      (a.keys <+: path → a.keys ≠ path → (Document.mapping entries).at? path = none) ∧
      (path <+: a.keys → path ≠ a.keys → (Document.mapping entries).HoldsMapping path) := by
  let earlier := before.foldl Assignment.apply []
  have hkept : (Document.mapping entries).at? path =
      (Document.mapping (a.apply earlier)).at? path := by
    rw [hdoc, List.foldl_append, List.foldl_cons, at?_foldl_apply hafter]
  have hset : (Document.mapping (a.apply earlier)).at? a.keys = some (.text a.value) :=
    at?_setPath hkeys earlier
  rw [Document.HoldsMapping, hkept]
  refine ⟨fun hpath => hpath ▸ hset, fun hpath hne => ?_, fun hpath hne => ?_⟩
  · have hleaf : (Document.mapping (a.apply earlier)).HoldsLeaf a.keys := ⟨_, hset, rfl⟩
    exact hleaf.at?_eq_none hpath hne
  · exact Document.holdsMapping_of_at? hset hpath hne

end Merged

/-- Making assignments fails at the first text without an equals sign or without a key before it.
Without such a text it gives the documents of the assignments merged one after another. So the last
assignment that meets a path decides: at its own path its value stands, below that path nothing does,
and above it there are mappings. -/
theorem assignmentDocument_folds_merges (assignments : List String) :
    ((∃ failure, assignmentDocument assignments = .error failure) ↔
        ∃ s ∈ assignments, Pathless s) ∧
      (∀ failure, assignmentDocument assignments = .error failure ↔
        ∃ before s after, assignments = before ++ s :: after ∧ (∀ t ∈ before, ¬Pathless t) ∧
          Pathless s ∧ failure = .badAssignment s) ∧
      (∀ doc, assignmentDocument assignments = .ok doc ↔
        ∃ as, List.Forall₂ Assignment.WrittenAs as assignments ∧
          doc = as.foldl (fun merged a => deepMerge merged a.document) []) ∧
      ∀ doc before a after path, assignmentDocument assignments = .ok doc →
        List.Forall₂ Assignment.WrittenAs (before ++ a :: after) assignments →
        (∀ later ∈ after, ¬later.Meets path) →
          (path = a.keys → (Document.mapping doc).at? path = some (.text a.value)) ∧
          (a.keys <+: path → a.keys ≠ path → (Document.mapping doc).at? path = none) ∧
          (path <+: a.keys → path ≠ a.keys → (Document.mapping doc).HoldsMapping path) := by
  have hmerge : Assignment.apply = fun merged a => deepMerge merged a.document :=
    funext fun entries => funext (apply_eq_deepMerge entries)
  refine ⟨⟨?_, ?_⟩, fun failure => applyAssignments_eq_error_iff,
    fun doc => hmerge ▸ applyAssignments_eq_ok_iff, ?_⟩
  · rintro ⟨failure, herror⟩
    obtain ⟨before, s, after, rfl, -, hs, -⟩ := applyAssignments_eq_error_iff.mp herror
    exact ⟨s, by simp, hs⟩
  · rintro ⟨s, hmem, hs⟩
    cases hdoc : assignmentDocument assignments with
    | error failure => exact ⟨failure, rfl⟩
    | ok doc =>
      obtain ⟨as, hwritten, -⟩ := applyAssignments_eq_ok_iff.mp hdoc
      obtain ⟨a, -, ha⟩ := exists_left_of_forall₂ hwritten hmem
      exact absurd hs ha.not_pathless
  · intro doc before a after path hdoc hwritten hafter
    have hfold : assignmentDocument assignments =
        .ok ((before ++ a :: after).foldl Assignment.apply []) :=
      applyAssignments_eq_ok_iff.mpr ⟨_, hwritten, rfl⟩
    obtain ⟨-, -, _, _, -, -, -, hkeys, -⟩ :=
      exists_right_of_forall₂ hwritten (List.mem_append_right before List.mem_cons_self)
    exact at?_foldl_of_last hkeys hafter (Except.ok.inj (hdoc.symm.trans hfold))

/-- The settings of a box, where a colour gives way to two shades and a pair of lengths to one. -/
def boxSettings : List String :=
  ["color=red", "size.width=1px", " color..light =a=b", "size.height=2px", "color.dark= navy ",
    "size= 3px"]

/-- What the settings of the box say. -/
def boxAssignments : List Assignment :=
  [⟨["color"], "red"⟩, ⟨["size", "width"], "1px"⟩, ⟨["color", "light"], "a=b"⟩,
    ⟨["size", "height"], "2px"⟩, ⟨["color", "dark"], "navy"⟩, ⟨["size"], "3px"⟩]

theorem writtenAs_boxSettings : List.Forall₂ Assignment.WrittenAs boxAssignments boxSettings := by
  simp only [boxAssignments, boxSettings, List.forall₂_cons, List.forall₂_nil_left_iff,
    ← ofText_eq_ok_iff]
  exact ⟨rfl, rfl, rfl, rfl, rfl, rfl, trivial⟩

/-- The settings are merged with the keys in the places where they were set first. The shades stand below
what was a colour, and nothing is left below the size. -/
theorem boxSettings_merged : ∃ doc, assignmentDocument boxSettings = .ok doc ∧
    doc = boxAssignments.foldl (fun merged a => deepMerge merged a.document) [] ∧
    doc = [("color", .mapping [("light", .text "a=b"), ("dark", .text "navy")]),
      ("size", .text "3px")] ∧
    (Document.mapping doc).at? ["color", "light"] = some (.text "a=b") ∧
    (Document.mapping doc).at? ["size", "height"] = none ∧
    (Document.mapping doc).HoldsMapping ["color"] ∧
    assignmentDocument ("gap=1" :: ". =2" :: boxSettings) = .error (.badAssignment ". =2") := by
  obtain ⟨-, -, hok, hlast⟩ := assignmentDocument_folds_merges boxSettings
  obtain ⟨-, hfirst, -⟩ := assignmentDocument_folds_merges ("gap=1" :: ". =2" :: boxSettings)
  have hdoc := (hok _).mpr ⟨boxAssignments, writtenAs_boxSettings, rfl⟩
  refine ⟨_, hdoc, rfl, rfl, ?_, ?_, ?_, (hfirst _).mpr ?_⟩
  · exact (hlast _ (boxAssignments.take 2) ⟨["color", "light"], "a=b"⟩ (boxAssignments.drop 3) _ hdoc
      writtenAs_boxSettings (by simp [boxAssignments, Assignment.Meets])).1 rfl
  · exact (hlast _ (boxAssignments.take 5) ⟨["size"], "3px"⟩ [] _ hdoc
      writtenAs_boxSettings (by simp)).2.1 (by decide) (by decide)
  · exact (hlast _ (boxAssignments.take 4) ⟨["color", "dark"], "navy"⟩ (boxAssignments.drop 5) _ hdoc
      writtenAs_boxSettings (by simp [boxAssignments, Assignment.Meets])).2.2 (by decide) (by decide)
  · refine ⟨["gap=1"], ". =2", boxSettings, rfl, ?_, (ofText_eq_error_iff.mp rfl).1, rfl⟩
    have hgap : Assignment.WrittenAs ⟨["gap"], "1"⟩ "gap=1" := ofText_eq_ok_iff.mp rfl
    simpa using hgap.not_pathless

end DesignTokens
