import DesignTokens.Files.Tree
import DesignTokens.Proofs.Files.Path

/-!
# Paths in a file tree

A path leads to its place if its text and its names are not too long and everything above it is a
directory. The place itself does not depend on the tree, so a path that once leads there does so for
as long as directories stay directories.

## Main definitions

- `Path.spot` — the place that a path leads to if nothing is in its way
- `Path.Visits` — the places on the way along a path, with its own
- `Path.Fits` — a path that no tree refuses for its text
- `FileTree.Leads` — a path with nothing in its way
- `FileTree.Adds` — a tree that differs from another one by directories along a path
-/

namespace DesignTokens

variable {tree before after : FileTree} {path dir : Path} {location other : Location}
  {name : String} {entry : FileEntry} {content : FileContent} {cause : FileCause}

namespace Path

/-- The place of a name below a location. -/
def child (location : Location) (name : String) : Location :=
  if name = ".." then FileTree.above location else location ++ [name]

/-- The place that a path leads to if nothing is in its way. -/
def spot (path : Path) : Location :=
  path.names.foldl child (if path.root = "" then [] else [path.root])

@[simp] theorem spot_below (dir : Path) (name : String) :
    (dir.below name).spot = child dir.spot name := by
  rw [spot, below, List.foldl_append]
  rfl

/-- Two names below one location have different places. -/
theorem child_injective {name' : String} (h : child location name = child location name') :
    name = name' := by
  have habove : ∀ s, s ≠ ".." → FileTree.above location ≠ location ++ [s] := by
    intro s hs h
    unfold FileTree.above at h
    split at h
    · next hlast =>
      rw [List.getLast?_eq_none_iff.mp hlast] at h
      simp_all
    · simp_all
    · simp at h
    · simp at h
    · have hlength := congrArg List.length h
      simp only [List.length_dropLast, List.length_append, List.length_singleton] at hlength
      omega
  unfold child at h
  by_cases hname : name = ".." <;> by_cases hname' : name' = ".."
  · rw [hname, hname']
  · rw [if_pos hname, if_neg hname'] at h
    exact absurd h (habove name' hname')
  · rw [if_neg hname, if_pos hname'] at h
    exact absurd h.symm (habove name hname)
  · rw [if_neg hname, if_neg hname'] at h
    simpa using h

theorem length_above_le (location : Location) :
    (FileTree.above location).length ≤ location.length + 1 := by
  unfold FileTree.above
  split <;> simp
  omega

/-- A name two levels further down has its place below no other name of the first level, unless that
level is left at once. -/
theorem child_child_ne {first last : String} (hlast : last ≠ "..")
    (h : name = ".." → first ≠ last) :
    child (child location name) last ≠ child location first := by
  intro heq
  rw [child, if_neg hlast] at heq
  by_cases hfirst : first = ".."
  · have hlength := congrArg List.length heq
    have habove := length_above_le location
    by_cases hname : name = ".." <;>
      simp only [child, hfirst, hname, if_true, if_false, List.length_append, List.length_singleton]
        at hlength <;> omega
  · rw [child.eq_def location first, if_neg hfirst] at heq
    obtain ⟨hlocation, hsame⟩ := List.append_inj' heq rfl
    by_cases hname : name = ".."
    · exact h hname (List.singleton_inj.mp hsame).symm
    · simp [child, hname] at hlocation

/-- The places on the way along a path, with its own. -/
def Visits (path : Path) (location : Location) : Prop :=
  ∃ a : Path, a.Above path ∧ a.spot = location

theorem visits_spot (path : Path) : path.Visits path.spot :=
  ⟨path, .refl path, rfl⟩

theorem Above.visits {a b : Path} (h : a.Above b) (hvisits : a.Visits location) :
    b.Visits location := by
  obtain ⟨c, hc, hspot⟩ := hvisits
  exact ⟨c, hc.trans h, hspot⟩

/-- What is above a name below a directory is that path itself or above the directory. -/
theorem above_below {a : Path} (h : a.Above (dir.below name)) : a = dir.below name ∨ a.Above dir := by
  obtain ⟨root, names⟩ := a
  obtain ⟨rfl, hnames⟩ := h
  obtain rfl | hnames := List.prefix_concat_iff.mp hnames
  · exact .inl rfl
  · exact .inr ⟨rfl, hnames⟩

theorem above_of_below {a : Path} (h : a.Above dir) : a.Above (dir.below name) :=
  h.trans ⟨rfl, List.prefix_append _ _⟩

theorem ne_below_of_above {a : Path} (h : a.Above dir) : a ≠ dir.below name := by
  rintro rfl
  have hlength := h.2.length_le
  simp only [below, List.length_append, List.length_singleton] at hlength
  omega

/-- A path that no tree refuses for its text. -/
structure Fits (path : Path) : Prop where
  acceptable : isAcceptable path.render = true
  short : path.render.utf8ByteSize < FileTree.maxPath
  names : ∀ name ∈ path.names, name = ".." ∨ name.utf8ByteSize ≤ FileTree.maxName

theorem Above.fits {a b : Path} (h : a.Above b) (hb : b.Fits) : a.Fits where
  acceptable := h.isAcceptable hb.acceptable
  short := by
    have hsize := h.size_le
    have hshort := hb.short
    have hone : 1 < FileTree.maxPath := by decide
    omega
  names name hname := hb.names name (h.2.subset hname)

end Path

namespace FileTree

theorem findEntry_setEntry (entries : List (Location × FileEntry)) :
    findEntry other (setEntry location entry entries) =
      if other = location then some entry else findEntry other entries := by
  induction entries with
  | nil => simp [setEntry, findEntry, eq_comm]
  | cons first rest ih =>
    obtain ⟨place, old⟩ := first
    by_cases hplace : place = location
    · subst hplace
      by_cases hother : place = other
      · simp [setEntry, findEntry, hother]
      · simp [setEntry, findEntry, hother, Ne.symm hother]
    · by_cases hother : place = other
      · have hne : other ≠ location := hother ▸ hplace
        simp [setEntry, findEntry, hother, hne]
      · simp [setEntry, findEntry, hplace, hother, ih]

theorem find?_set_self (h : tree.find? location ≠ some .directory) :
    (tree.set location entry).find? location = some entry := by
  have hinside : isOutside location = false := by
    by_contra hout
    simp [find?, hout] at h
  simp [find?, set, hinside, findEntry_setEntry]

theorem find?_set_of_ne (h : other ≠ location) :
    (tree.set location entry).find? other = tree.find? other := by
  simp [find?, set, findEntry_setEntry, h]

section Leading

theorem step_eq_ok_iff : tree.step location name = .ok other ↔
    tree.find? location = some .directory ∧ (name = ".." ∨ name.utf8ByteSize ≤ maxName) ∧
      Path.child location name = other := by
  unfold step Path.child
  cases hfound : tree.find? location with
  | none => simp
  | some entry =>
    cases entry with
    | file content => simp
    | directory =>
      by_cases hname : name = ".."
      · simp [hname]
      · by_cases hlong : maxName < name.utf8ByteSize
        · have hlong' : ¬ name.utf8ByteSize ≤ maxName := by omega
          simp [hname, hlong, hlong']
        · have hshort : name.utf8ByteSize ≤ maxName := by omega
          simp [hname, hlong, hshort]

theorem walk_eq_ok_iff {names : List String} : tree.walk location names = .ok other ↔
    names.foldl Path.child location = other ∧
      (∀ name ∈ names, name = ".." ∨ name.utf8ByteSize ≤ maxName) ∧
        ∀ first, first <+: names → first ≠ names →
          tree.find? (first.foldl Path.child location) = some .directory := by
  induction names generalizing location with
  | nil => simp [walk, eq_comm]
  | cons name rest ih =>
    have hstep : tree.walk location (name :: rest) = .ok other ↔
        ∃ next, tree.step location name = .ok next ∧ tree.walk next rest = .ok other := by
      rw [walk]
      cases tree.step location name <;> simp [bind, Except.bind]
    -- The first name is looked up at the location itself, the others below its place.
    have hfirst : (∀ first, first <+: name :: rest → first ≠ name :: rest →
        tree.find? (first.foldl Path.child location) = some .directory) ↔
        tree.find? location = some .directory ∧ ∀ first, first <+: rest → first ≠ rest →
          tree.find? (first.foldl Path.child (Path.child location name)) = some .directory := by
      constructor
      · intro h
        refine ⟨h [] (List.nil_prefix) (List.cons_ne_nil _ _).symm, fun first hprefix hne => ?_⟩
        exact h (name :: first) (List.prefix_cons_inj name |>.mpr hprefix) (by simpa using hne)
      · rintro ⟨hlocation, hrest⟩ first hprefix hne
        cases first with
        | nil => exact hlocation
        | cons name' first =>
          obtain ⟨rfl, htail⟩ := List.cons_prefix_cons.mp hprefix
          exact hrest first htail (by simpa using hne)
    simp only [hstep, step_eq_ok_iff, ih, hfirst, List.foldl_cons, List.forall_mem_cons]
    grind

/-- A path is refused for its text, or it is walked along. -/
theorem locate_cases (tree : FileTree) (path : Path) :
    (∃ cause, tree.locate path = .error cause ∧ ¬ path.Fits ∧
      (cause.isTextual = true ∧ Path.isAcceptable path.render = false ∨ cause = .nameTooLong)) ∨
    (Path.isAcceptable path.render = true ∧ path.render.utf8ByteSize < maxPath ∧
      tree.locate path = tree.walk (if path.root = "" then [] else [path.root]) path.names) := by
  by_cases hacceptable : Path.isAcceptable path.render = true
  · obtain ⟨hencoded, hnull⟩ := Path.isAcceptable_render_iff.mp hacceptable
    unfold locate
    rw [hencoded]
    by_cases hlong : maxPath ≤ path.render.utf8ByteSize
    · have hfits : ¬ path.Fits := fun hfits => by have := hfits.short; omega
      exact .inl ⟨.nameTooLong, by simp [hnull, hlong], hfits, .inr rfl⟩
    · exact .inr ⟨hacceptable, by omega, by simp [hnull, hlong]⟩
  · have hfits : ¬ path.Fits := fun hfits => hacceptable hfits.acceptable
    rw [Bool.not_eq_true] at hacceptable
    refine .inl ?_
    unfold locate
    cases hencoded : Text.Utf8.pathFault? path.render with
    | some fault => exact ⟨_, rfl, hfits, .inl ⟨rfl, hacceptable⟩⟩
    | none =>
      have hnull : path.hasNull = true := by
        by_contra hnull
        have hboth := Path.isAcceptable_render_iff.mpr ⟨hencoded, by simpa using hnull⟩
        simp [hacceptable] at hboth
      exact ⟨.nullByte, by simp [hnull], hfits, .inl ⟨rfl, hacceptable⟩⟩

/-- A path with nothing in its way. -/
def Leads (tree : FileTree) (path : Path) : Prop :=
  path.Fits ∧ ∀ a : Path, a.Above path → a ≠ path → tree.find? a.spot = some .directory

theorem locate_eq_ok_iff :
    tree.locate path = .ok location ↔ tree.Leads path ∧ path.spot = location := by
  have habove : (∀ a : Path, a.Above path → a ≠ path → tree.find? a.spot = some .directory) ↔
      ∀ first, first <+: path.names → first ≠ path.names →
        tree.find? (first.foldl Path.child (if path.root = "" then [] else [path.root])) =
          some .directory := by
    constructor
    · intro h first hprefix hne
      exact h ⟨path.root, first⟩ ⟨rfl, hprefix⟩ fun heq => hne (congrArg Path.names heq)
    · rintro h ⟨root, first⟩ ⟨hroot, hprefix⟩ hne
      cases hroot
      exact h first hprefix fun hnames => hne (hnames ▸ rfl)
  rw [Leads, habove]
  obtain ⟨cause, hrefused, hunfit, -⟩ | ⟨hacceptable, hshort, hwalk⟩ := locate_cases tree path
  · simp [hrefused, hunfit]
  · have hfits : path.Fits ↔ ∀ name ∈ path.names, name = ".." ∨ name.utf8ByteSize ≤ maxName :=
      ⟨Path.Fits.names, fun hnames => ⟨hacceptable, hshort, hnames⟩⟩
    rw [hwalk, walk_eq_ok_iff, hfits]
    exact ⟨fun ⟨hspot, hnames, hdirs⟩ => ⟨⟨hnames, hdirs⟩, hspot⟩,
      fun ⟨⟨hnames, hdirs⟩, hspot⟩ => ⟨hspot, hnames, hdirs⟩⟩

theorem locate_of_leads (h : tree.Leads path) : tree.locate path = .ok path.spot :=
  locate_eq_ok_iff.mpr ⟨h, rfl⟩

theorem entry_eq_ok_iff :
    tree.entry path = .ok entry ↔ tree.Leads path ∧ tree.find? path.spot = some entry := by
  unfold FileTree.entry
  cases hlocate : tree.locate path with
  | error cause =>
    have hleads : ¬ tree.Leads path := fun h => by simp [locate_of_leads h] at hlocate
    simp [bind, Except.bind, hleads]
  | ok location =>
    obtain ⟨hleads, rfl⟩ := locate_eq_ok_iff.mp hlocate
    cases hfound : tree.find? path.spot <;> simp [bind, Except.bind, hleads, hfound]

theorem read_eq_ok_iff : tree.read path = .ok content ↔
    tree.Leads path ∧ tree.find? path.spot = some (.file content) := by
  rw [← entry_eq_ok_iff, read]
  cases tree.entry path with
  | error cause => simp [bind, Except.bind]
  | ok found => cases found <;> simp [bind, Except.bind]

/-- A directory that a path leads to. -/
def HasDirectory (tree : FileTree) (path : Path) : Prop :=
  tree.entry path = .ok .directory

theorem hasDirectory_iff : tree.HasDirectory path ↔
    path.Fits ∧ ∀ location, path.Visits location → tree.find? location = some .directory := by
  rw [HasDirectory, entry_eq_ok_iff, Leads]
  constructor
  · rintro ⟨⟨hfits, hdirs⟩, hspot⟩
    refine ⟨hfits, ?_⟩
    rintro location ⟨a, habove, rfl⟩
    by_cases ha : a = path
    · exact ha ▸ hspot
    · exact hdirs a habove ha
  · rintro ⟨hfits, hdirs⟩
    exact ⟨⟨hfits, fun a habove _ => hdirs _ ⟨a, habove, rfl⟩⟩, hdirs _ path.visits_spot⟩

theorem leads_below_iff : tree.Leads (dir.below name) ↔
    (dir.below name).Fits ∧ tree.HasDirectory dir := by
  rw [hasDirectory_iff, Leads]
  constructor
  · rintro ⟨hfits, hdirs⟩
    refine ⟨hfits, (Path.above_of_below (.refl dir)).fits hfits, ?_⟩
    rintro location ⟨a, habove, rfl⟩
    exact hdirs a (Path.above_of_below habove) (Path.ne_below_of_above habove)
  · rintro ⟨hfits, -, hdirs⟩
    refine ⟨hfits, fun a habove hne => ?_⟩
    exact hdirs _ ⟨a, (Path.above_below habove).resolve_left hne, rfl⟩

theorem HasDirectory.above {a : Path} (h : tree.HasDirectory path) (habove : a.Above path) :
    tree.HasDirectory a := by
  rw [hasDirectory_iff] at h ⊢
  exact ⟨habove.fits h.1, fun location hvisits => h.2 location (habove.visits hvisits)⟩

/-- A root is a directory of every tree. -/
theorem hasDirectory_of_root (hnormal : path.Normal) (hnames : path.names = []) (tree : FileTree) :
    tree.HasDirectory path := by
  obtain ⟨root, names⟩ := path
  obtain rfl : names = [] := hnames
  rw [hasDirectory_iff]
  constructor
  · obtain hroot | hroot | hroot := hnormal.root <;> cases hroot <;>
      exact ⟨by decide, by decide, by decide⟩
  rintro location ⟨⟨root', names⟩, ⟨rfl, hprefix⟩, rfl⟩
  obtain rfl : names = [] := List.prefix_nil.mp hprefix
  obtain hroot | hroot | hroot := hnormal.root <;> simp_all [Path.spot, find?, isOutside]

/-- Directories of one tree that are still there in another one. -/
def KeepsDirectories (before after : FileTree) : Prop :=
  ∀ location, before.find? location = some .directory → after.find? location = some .directory

theorem keepsDirectories_set (h : tree.find? location ≠ some .directory) :
    tree.KeepsDirectories (tree.set location entry) := by
  intro other hdir
  have hother : other ≠ location := fun hother => h (hother ▸ hdir)
  rw [find?_set_of_ne hother, hdir]

theorem KeepsDirectories.leads (h : before.KeepsDirectories after) (hleads : before.Leads path) :
    after.Leads path :=
  ⟨hleads.1, fun a habove hne => h _ (hleads.2 a habove hne)⟩

theorem KeepsDirectories.hasDirectory (h : before.KeepsDirectories after)
    (hdir : before.HasDirectory path) : after.HasDirectory path := by
  rw [HasDirectory, entry_eq_ok_iff] at hdir ⊢
  exact ⟨h.leads hdir.1, h _ hdir.2⟩

end Leading

section Faults

theorem step_error_cases (h : tree.step location name = .error cause) :
    (cause = .nameTooLong ∧ ¬ (name = ".." ∨ name.utf8ByteSize ≤ maxName)) ∨ cause = .missing ∨
      (cause = .notDirectory ∧ ∃ content, tree.find? location = some (.file content)) := by
  unfold step at h
  cases hfound : tree.find? location with
  | none => simp_all
  | some entry =>
    cases entry with
    | file content => simp_all
    | directory =>
      by_cases hname : name = ".."
      · simp [hfound, hname] at h
      · by_cases hlong : maxName < name.utf8ByteSize
        · simp [hfound, hname, hlong] at h
          simp [← h, hname, hlong]
        · simp [hfound, hname, hlong] at h

theorem walk_error_cases {names : List String} (h : tree.walk location names = .error cause) :
    (cause = .nameTooLong ∧ ¬ ∀ name ∈ names, name = ".." ∨ name.utf8ByteSize ≤ maxName) ∨
      cause = .missing ∨ (cause = .notDirectory ∧ ∃ first content, first <+: names ∧
        tree.find? (first.foldl Path.child location) = some (.file content)) := by
  induction names generalizing location with
  | nil => simp [walk] at h
  | cons name rest ih =>
    rw [walk] at h
    cases hstep : tree.step location name with
    | error stepCause =>
      simp only [hstep, bind, Except.bind, Except.error.injEq] at h
      subst h
      obtain ⟨hcause, hlong⟩ | hcause | ⟨hcause, content, hfile⟩ := step_error_cases hstep
      · exact .inl ⟨hcause, fun hnames => hlong (hnames name List.mem_cons_self)⟩
      · exact .inr (.inl hcause)
      · exact .inr (.inr ⟨hcause, [], content, List.nil_prefix, hfile⟩)
    | ok next =>
      simp only [hstep, bind, Except.bind] at h
      obtain ⟨-, -, rfl⟩ := step_eq_ok_iff.mp hstep
      obtain ⟨hcause, hlong⟩ | hcause | ⟨hcause, first, content, hprefix, hfile⟩ := ih h
      · exact .inl ⟨hcause, fun hnames => hlong fun n hn => hnames n (List.mem_cons_of_mem _ hn)⟩
      · exact .inr (.inl hcause)
      · have hmore : name :: first <+: name :: rest := List.prefix_cons_inj name |>.mpr hprefix
        exact .inr (.inr ⟨hcause, name :: first, content, hmore, hfile⟩)

/-- What keeps a path from leading somewhere: its text, a directory that is missing, or a file on its
way. -/
theorem locate_error_cases (h : tree.locate path = .error cause) :
    (cause.isTextual = true ∧ Path.isAcceptable path.render = false) ∨
      (cause = .nameTooLong ∧ ¬ path.Fits) ∨ cause = .missing ∨ (cause = .notDirectory ∧
        ∃ location content, path.Visits location ∧ tree.find? location = some (.file content)) := by
  obtain ⟨_, hrefused, hunfit, hcause⟩ | ⟨-, -, hwalk⟩ := locate_cases tree path
  · obtain rfl := Except.error.inj (h.symm.trans hrefused)
    exact hcause.imp_right fun hlong => .inl ⟨hlong, hunfit⟩
  · rw [hwalk] at h
    obtain ⟨hcause, hnames⟩ | hcause | ⟨hcause, first, content, hprefix, hfile⟩ :=
      walk_error_cases h
    · exact .inr (.inl ⟨hcause, fun hfits => hnames hfits.names⟩)
    · exact .inr (.inr (.inl hcause))
    · have hvisits : path.Visits (Path.spot ⟨path.root, first⟩) :=
        ⟨⟨path.root, first⟩, ⟨rfl, hprefix⟩, rfl⟩
      exact .inr (.inr (.inr ⟨hcause, _, content, hvisits, hfile⟩))

theorem entry_of_locate_error (h : tree.locate path = .error cause) :
    tree.entry path = .error cause := by
  rw [entry, h]
  rfl

/-- There is no entry where the path does not lead, and where nothing is. -/
theorem entry_error_cases (h : tree.entry path = .error cause) :
    tree.locate path = .error cause ∨ cause = .missing := by
  unfold entry at h
  cases hlocate : tree.locate path with
  | error locateCause =>
    simp only [hlocate, bind, Except.bind, Except.error.injEq] at h
    exact .inl (h ▸ rfl)
  | ok location =>
    simp only [hlocate, bind, Except.bind] at h
    split at h
    · cases h
    · exact .inr (Except.error.inj h).symm

end Faults

end FileTree

end DesignTokens
