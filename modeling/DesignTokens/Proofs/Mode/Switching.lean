import DesignTokens.Mode.Page
import Mathlib.Data.List.Basic

/-!
# Switching pages

Whatever happens to a page, and in whatever order, its classes are those that it had before the first
switch, then those with the classes of all modes replaced by the class of the current mode, together
with the class of a switch as long as one takes place. A switch takes place exactly as long as the
switcher holds a timer, which is then the latest one; all others were cancelled or have run.

## Main definitions

- `Shows` — the classes of a page in a mode
- `Page.Coherent` — what every event preserves
-/

namespace DesignTokens

variable {registry : ModeRegistry} {initial classes : List String} {mode target : DisplayMode}

namespace ModeRegistry

/-- The classes of all modes. -/
def classNames (registry : ModeRegistry) : List String :=
  registry.all.map DisplayMode.className

theorem find_eq_ok_iff {name : String} :
    registry.find name = .ok mode ↔ Mapping.find? registry.modes name = some mode := by
  unfold find
  cases Mapping.find? registry.modes name <;> simp

theorem mem_all_of_find {name : String} (h : registry.find name = .ok mode) :
    mode ∈ registry.all :=
  List.mem_map_of_mem (Mapping.mem_of_find? (find_eq_ok_iff.mp h))

theorem className_mem (h : mode ∈ registry.all) : mode.className ∈ registry.classNames :=
  List.mem_map_of_mem h

/-- A mode is found under its own name. -/
theorem name_of_find {modes : List DisplayMode} {name : String}
    (h : (ofList modes).find name = .ok mode) : mode.name = name := by
  have hmem := Mapping.mem_of_mem_ofEntries (Mapping.mem_of_find? (find_eq_ok_iff.mp h))
  obtain ⟨found, -, heq⟩ := List.mem_map.mp hmem
  cases heq
  rfl

theorem find_of_not_contains {name : String} (h : registry.contains name = false) :
    registry.find name = .error (registry.unknown name) := by
  have hnone : Mapping.find? registry.modes name = none := by
    simpa [contains, Mapping.has] using h
  rw [find, hnone]

end ModeRegistry

section Calls

theorem mem_applyCall_add {c d : String} :
    c ∈ applyCall classes (.add d) ↔ c ∈ classes ∨ c = d := by
  by_cases hd : d ∈ classes
  · simp only [applyCall, List.contains_iff_mem, hd, if_true]
    refine ⟨.inl, ?_⟩
    rintro (hc | rfl)
    · exact hc
    · exact hd
  · simp [applyCall, hd]

theorem mem_applyCall_remove {c d : String} :
    c ∈ applyCall classes (.remove d) ↔ c ∈ classes ∧ c ≠ d := by
  simp [applyCall]

theorem applyCalls_append (calls more : List SinkCall) :
    applyCalls classes (calls ++ more) = applyCalls (applyCalls classes calls) more :=
  List.foldl_append

theorem mem_applyCalls_remove {c : String} (modes : List DisplayMode) :
    c ∈ applyCalls classes (modes.map fun mode => .remove mode.className) ↔
      c ∈ classes ∧ ∀ mode ∈ modes, mode.className ≠ c := by
  induction modes generalizing classes with
  | nil => simp [applyCalls]
  | cons mode rest ih =>
    have hrest := @ih (applyCall classes (.remove mode.className))
    rw [mem_applyCall_remove] at hrest
    simp only [List.map_cons, applyCalls, List.foldl_cons, List.forall_mem_cons] at hrest ⊢
    rw [hrest, and_assoc, ne_comm]

/-- What a switch leaves: the classes that belong to no other mode, the class of the mode and that
of the switch. -/
theorem mem_applyCalls_modeCalls (s : Switcher) {c : String} :
    c ∈ applyCalls classes (s.modeCalls target) ↔
      (c ∈ classes ∧ ∀ mode ∈ s.registry.all, mode.className = c → c = target.className) ∨
        c = target.className ∨ c = transitionClass := by
  rw [Switcher.modeCalls, applyCalls_append]
  change c ∈ applyCall (applyCall _ (.add target.className)) (.add transitionClass) ↔ _
  rw [mem_applyCall_add, mem_applyCall_add, mem_applyCalls_remove, or_assoc]
  refine or_congr_left (and_congr_right fun _ => forall_congr' fun mode => ?_)
  simp only [List.mem_filter, decide_eq_true_eq, and_imp]
  refine forall_congr' fun _ => ⟨fun h heq => ?_, fun h hne heq => hne (heq.trans (h heq))⟩
  by_contra hne
  exact h (fun htarget => hne (heq.symm.trans htarget)) heq

end Calls

/-- The classes of a page in a mode: those from before that belong to no mode, the class of the mode,
and during a switch the class that says so. -/
def Shows (registry : ModeRegistry) (initial classes : List String) (mode : DisplayMode)
    (transitioning : Bool) : Prop :=
  ∀ c, c ∈ classes ↔ (c ∈ initial ∧ c ∉ registry.classNames) ∨ c = mode.className ∨
    (c = transitionClass ∧ transitioning = true)

/-- The classes that belong to no mode and to no switch are left alone. -/
def KeepsOthers (registry : ModeRegistry) (initial classes : List String) : Prop :=
  ∀ c, c ∉ registry.classNames → c ≠ transitionClass → (c ∈ classes ↔ c ∈ initial)

theorem Shows.keepsOthers {transitioning : Bool} (hmode : mode ∈ registry.all)
    (h : Shows registry initial classes mode transitioning) :
    KeepsOthers registry initial classes := by
  intro c hnames hc
  have hne : c ≠ mode.className := by
    rintro rfl
    exact hnames (ModeRegistry.className_mem hmode)
  rw [h c]
  simp [hnames, hc, hne]

theorem KeepsOthers.shows_switch (h : KeepsOthers registry initial classes) {s : Switcher}
    (hs : s.registry = registry) :
    Shows registry initial (applyCalls classes (s.modeCalls target)) target true := by
  intro c
  rw [mem_applyCalls_modeCalls, hs]
  by_cases hclass : c = target.className
  · simp [hclass]
  by_cases htransition : c = transitionClass
  · simp [htransition]
  simp only [hclass, htransition, or_false, false_and, imp_false]
  -- A class of a mode that is not the target's is removed.
  by_cases hnames : c ∈ registry.classNames
  · obtain ⟨mode, hmode, heq⟩ := List.mem_map.mp hnames
    simp only [hnames, not_true, and_false, iff_false]
    rintro ⟨-, hother⟩
    exact hother mode hmode heq
  · have hother : ∀ mode ∈ registry.all, mode.className ≠ c := by
      rintro mode hmode rfl
      exact hnames (ModeRegistry.className_mem hmode)
    simp only [hnames, not_false_eq_true, and_true]
    rw [h c hnames htransition]
    exact and_iff_left hother

/-- The end of a switch takes its class away. -/
theorem Shows.endTransition {transitioning : Bool} (hclass : mode.className ≠ transitionClass)
    (hinitial : transitionClass ∉ initial)
    (h : Shows registry initial classes mode transitioning) :
    Shows registry initial (applyCalls classes [.remove transitionClass]) mode false := by
  intro c
  change c ∈ applyCall classes (.remove transitionClass) ↔ _
  rw [mem_applyCall_remove, h c]
  by_cases hc : c = transitionClass
  · subst hc
    simp [hinitial, hclass.symm]
  · simp [hc]

section Timers

theorem length_cancelTimer (timers : List SwitchTimer) (pending : Option Nat) :
    (Switcher.cancelTimer timers pending).length = timers.length := by
  cases pending <;> simp [Switcher.cancelTimer]

theorem getElem?_cancelTimer (timers : List SwitchTimer) (pending : Option Nat) (i : Nat) :
    (Switcher.cancelTimer timers pending)[i]? = timers[i]?.map fun timer =>
      if pending = some i then { timer with cancelled := true } else timer := by
  cases pending with
  | none => simp [Switcher.cancelTimer]
  | some j =>
    rw [Switcher.cancelTimer, List.getElem?_modify]
    by_cases hj : j = i <;> simp [hj]

end Timers

namespace Switcher

theorem setMode_of_find {s : Switcher} (preferred name : String)
    (h : s.registry.find (concreteName preferred name) = .ok target) :
    s.setMode preferred name = .ok (s.switchTo target, s.modeCalls target) := by
  have hmode : s.concreteMode preferred name = .ok target := h
  rw [setMode, hmode]
  rfl

theorem setMode_of_unknown {s : Switcher} (preferred name : String) {failure : Failure}
    (h : s.registry.find (concreteName preferred name) = .error failure) :
    s.setMode preferred name = .error failure := by
  have hmode : s.concreteMode preferred name = .error failure := h
  rw [setMode, hmode]
  rfl

theorem runCallback_of_timer {s : Switcher} {i : Nat} {timer : SwitchTimer}
    (h : s.timers[i]? = some timer) : s.runCallback i = s.endTransition timer.generation := by
  rw [runCallback, h]

end Switcher

namespace Page

variable {page : Page}

/-- What every event on a page preserves. -/
structure Coherent (registry : ModeRegistry) (initial : List String) (page : Page) : Prop where
  catalogue : page.switcher.registry = registry
  generation : page.switcher.generation = page.switcher.timers.length
  numbered : ∀ i timer, page.switcher.timers[i]? = some timer → timer.generation = i + 1
  ended : ∀ i ∈ page.ended, i < page.switcher.timers.length
  /-- There is one timer for each mode that was switched to. -/
  visited : page.visited.length = page.switcher.timers.length
  mode : page.switcher.mode = page.visited.getLast?
  untouched : page.visited = [] → page.classes = initial
  shows : ∀ name, page.switcher.mode = some name → ∃ mode, registry.find name = .ok mode ∧
    Shows registry initial page.classes mode page.switcher.transitioning
  transitioning : page.switcher.transitioning = true ↔ page.switcher.pending.isSome
  /-- The timer that is held is the latest one, and it is running. -/
  latest : ∀ i, page.switcher.pending = some i → i + 1 = page.switcher.timers.length
  running : ∀ i, page.switcher.pending = some i → ∃ timer, page.switcher.timers[i]? = some timer ∧
    timer.started = true ∧ timer.cancelled = false ∧ i ∉ page.ended
  /-- Every other timer was cancelled or has run. -/
  finished : ∀ i timer, page.switcher.timers[i]? = some timer → page.switcher.pending ≠ some i →
    timer.cancelled = true ∨ i ∈ page.ended

theorem coherent_start (transition : Transition) (preferred : String) :
    (start registry transition preferred initial).Coherent registry initial := by
  constructor <;> simp [start, Switcher.start]

namespace Coherent

theorem keepsOthers (h : page.Coherent registry initial) :
    KeepsOthers registry initial page.classes := by
  cases hmode : page.switcher.mode with
  | none =>
    have hnil : page.visited = [] := List.getLast?_eq_none_iff.mp (h.mode ▸ hmode)
    intro c _ _
    rw [h.untouched hnil]
  | some name =>
    obtain ⟨mode, hfind, hshows⟩ := h.shows name hmode
    exact hshows.keepsOthers (ModeRegistry.mem_all_of_find hfind)

/-- When the timer that is held is cancelled, all timers are over, and they stay as they were made. -/
theorem cancelled (h : page.Coherent registry initial) {i : Nat} {timer : SwitchTimer}
    (htimer : (Switcher.cancelTimer page.switcher.timers page.switcher.pending)[i]? = some timer) :
    timer.generation = i + 1 ∧ (timer.cancelled = true ∨ i ∈ page.ended) := by
  rw [getElem?_cancelTimer] at htimer
  obtain ⟨old, hold, rfl⟩ := Option.map_eq_some_iff.mp htimer
  have hgeneration := h.numbered i old hold
  by_cases hpending : page.switcher.pending = some i
  · rw [if_pos hpending]
    exact ⟨hgeneration, .inl rfl⟩
  · rw [if_neg hpending]
    exact ⟨hgeneration, h.finished i old hold hpending⟩

/-- A callback is recorded for a timer that there is. -/
theorem ended_record (h : page.Coherent registry initial) {i : Nat}
    (hi : i < page.switcher.timers.length) :
    ∀ j ∈ page.ended ++ [i], j < page.switcher.timers.length := by
  intro j hj
  obtain hj | hj := List.mem_append.mp hj
  · exact h.ended j hj
  · have hsame := List.mem_singleton.mp hj
    omega

/-- A page is switched to a known mode. -/
theorem switchTo (hname : ∀ name mode, registry.find name = .ok mode → mode.name = name)
    (h : page.Coherent registry initial) {name : String}
    (hfind : registry.find (Switcher.concreteName page.preferred name) = .ok target) :
    (page.step (.setMode name)).1.Coherent registry initial := by
  have hset := Switcher.setMode_of_find _ _ (h.catalogue.symm ▸ hfind)
  have htarget := hname _ _ hfind
  have hlength := length_cancelTimer page.switcher.timers page.switcher.pending
  simp only [step, hset]
  refine ⟨h.catalogue, ?_, ?_, ?_, ?_, ?_, ?_, ?_, ?_, ?_, ?_, ?_⟩
  all_goals simp only [follow, Switcher.switchTo]
  · simp [hlength, h.generation]
  · intro i timer hi
    rw [List.getElem?_append, hlength] at hi
    split at hi
    · exact (h.cancelled hi).1
    · have : i = page.switcher.timers.length := by
        have := (List.getElem?_eq_some_iff.mp hi).1
        simp at this
        omega
      subst this
      simp [Switcher.nextTimer] at hi
      simp [← hi, h.generation]
  · intro i hi
    have := h.ended i hi
    simp [hlength]
    omega
  · simp [hlength, h.visited]
  · simp [htarget]
  · simp
  · rintro _ ⟨⟩
    refine ⟨target, htarget ▸ hfind, ?_⟩
    exact h.keepsOthers.shows_switch h.catalogue
  · simp
  · rintro _ ⟨⟩
    simp [hlength]
  · rintro _ ⟨⟩
    refine ⟨page.switcher.nextTimer, by simp [hlength], rfl, rfl, fun hi => ?_⟩
    exact absurd (h.ended _ hi) (Nat.lt_irrefl _)
  · intro i timer hi hne
    rw [List.getElem?_append, hlength] at hi
    split at hi
    · exact (h.cancelled hi).2
    · have := (List.getElem?_eq_some_iff.mp hi).1
      simp at this hne
      omega

/-- The callback of the latest timer ends the switch, if it still takes place. -/
theorem endTransition (hclass : ∀ mode ∈ registry.all, mode.className ≠ transitionClass)
    (hinitial : transitionClass ∉ initial) (h : page.Coherent registry initial) {i : Nat}
    (hlast : i + 1 = page.switcher.timers.length) :
    ((page.follow (page.switcher.endTransition (i + 1))).record i true).Coherent registry initial := by
  have hnow : i + 1 = page.switcher.generation := by rw [h.generation, hlast]
  have hvisited : page.visited ≠ [] := by
    intro hnil
    have := h.visited
    simp [hnil] at this
    omega
  simp only [Switcher.endTransition, hnow, ne_eq, not_true, if_false, follow, record, if_true]
  refine ⟨h.catalogue, h.generation, h.numbered, ?_, h.visited, h.mode, ?_, ?_, ?_, ?_, ?_, ?_⟩
  · exact h.ended_record (by omega)
  · exact fun hnil => absurd hnil hvisited
  · intro name hname
    obtain ⟨mode, hfind, hshows⟩ := h.shows name hname
    exact ⟨mode, hfind, hshows.endTransition (hclass mode (ModeRegistry.mem_all_of_find hfind)) hinitial⟩
  · simp
  · simp
  · simp
  · intro j timer hj _
    by_cases hpending : page.switcher.pending = some j
    · have := h.latest j hpending
      exact .inr (List.mem_append_right _ (List.mem_singleton.mpr (by omega)))
    · exact (h.finished j timer hj hpending).imp_right (List.mem_append_left _)

/-- The callback of an older timer comes to nothing. -/
theorem endTransition_of_older (h : page.Coherent registry initial) {i : Nat}
    (holder : i + 1 < page.switcher.timers.length) :
    page.switcher.endTransition (i + 1) = (page.switcher, []) := by
  have hne : i + 1 ≠ page.switcher.generation := by
    rw [h.generation]
    omega
  rw [Switcher.endTransition, if_pos hne]

theorem follow_nothing : page.follow (page.switcher, []) = page := rfl

theorem record_older (h : page.Coherent registry initial) {i : Nat}
    (holder : i + 1 < page.switcher.timers.length) (ran : Bool) :
    (page.record i ran).Coherent registry initial := by
  cases ran with
  | false => exact h
  | true =>
    refine { h with ended := ?_, running := ?_, finished := ?_ }
    · exact h.ended_record (by omega)
    · intro j hj
      obtain ⟨timer, htimer, hstarted, hcancelled, hended⟩ := h.running j hj
      refine ⟨timer, htimer, hstarted, hcancelled, fun hmem => ?_⟩
      rcases List.mem_append.mp hmem with hmem | hmem
      · exact hended hmem
      · have := List.mem_singleton.mp hmem
        have := h.latest j hj
        omega
    · intro j timer hj hpending
      exact (h.finished j timer hj hpending).imp_right (List.mem_append_left _)

/-- An older timer does nothing, whether it runs out or its callback comes late. -/
theorem step_older (h : page.Coherent registry initial) {i : Nat}
    (holder : i + 1 < page.switcher.timers.length) :
    page.step (.fire i) = (page.record i (page.switcher.isDue i), []) ∧
      page.step (.callback i) = (page.record i (page.switcher.hasTimer i), []) := by
  obtain ⟨timer, htimer⟩ : ∃ timer, page.switcher.timers[i]? = some timer :=
    ⟨_, List.getElem?_eq_getElem (by omega)⟩
  have hend := h.numbered i timer htimer ▸ h.endTransition_of_older holder
  have hcallback : page.switcher.runCallback i = (page.switcher, []) := by
    rw [Switcher.runCallback_of_timer htimer, hend]
  have hfire : page.switcher.fire i = (page.switcher, []) := by
    simp only [Switcher.fire, htimer, hend, ite_self]
  constructor
  · simp only [step, hfire, follow_nothing]
  · simp only [step, hcallback, follow_nothing]

theorem callback (hclass : ∀ mode ∈ registry.all, mode.className ≠ transitionClass)
    (hinitial : transitionClass ∉ initial) (h : page.Coherent registry initial) (i : Nat) :
    (page.step (.callback i)).1.Coherent registry initial := by
  by_cases holder : i + 1 < page.switcher.timers.length
  · rw [(h.step_older holder).2]
    exact h.record_older holder _
  cases htimer : page.switcher.timers[i]? with
  | none =>
    simp only [step, Switcher.runCallback, Switcher.hasTimer, htimer]
    exact h
  | some timer =>
    have hlast : i + 1 = page.switcher.timers.length := by
      have := (List.getElem?_eq_some_iff.mp htimer).1
      omega
    have hend := h.endTransition hclass hinitial hlast
    rw [← h.numbered i timer htimer, ← Switcher.runCallback_of_timer htimer] at hend
    simpa only [step, Switcher.hasTimer, htimer, Option.isSome_some] using hend

/-- A timer that runs out does what its callback does, or nothing. -/
theorem fire (hclass : ∀ mode ∈ registry.all, mode.className ≠ transitionClass)
    (hinitial : transitionClass ∉ initial) (h : page.Coherent registry initial) (i : Nat) :
    (page.step (.fire i)).1.Coherent registry initial := by
  have hcallback := h.callback hclass hinitial i
  cases htimer : page.switcher.timers[i]? with
  | none =>
    simp only [step, Switcher.fire, Switcher.isDue, htimer]
    exact h
  | some timer =>
    cases hcancelled : timer.cancelled with
    | true =>
      have hfire : page.switcher.fire i = (page.switcher, []) := by
        simp only [Switcher.fire, htimer, hcancelled, if_true]
      have hdue : page.switcher.isDue i = false := by
        simp [Switcher.isDue, htimer, hcancelled]
      simp only [Page.step, hfire, hdue]
      exact h
    | false =>
      simpa [step, Switcher.fire, Switcher.isDue, Switcher.runCallback, Switcher.hasTimer, htimer,
        hcancelled] using hcallback

/-- Before the first switch no switch takes place. -/
theorem not_transitioning (h : page.Coherent registry initial) (hnil : page.visited = []) :
    page.switcher.transitioning = false := by
  have hlength := h.visited
  cases htransitioning : page.switcher.transitioning with
  | false => rfl
  | true =>
    obtain ⟨i, hi⟩ := Option.isSome_iff_exists.mp (h.transitioning.mp htransitioning)
    have := h.latest i hi
    rw [hnil, List.length_nil] at hlength
    omega

theorem dispose (hclass : ∀ mode ∈ registry.all, mode.className ≠ transitionClass)
    (hinitial : transitionClass ∉ initial) (h : page.Coherent registry initial) :
    (page.follow page.switcher.dispose).Coherent registry initial := by
  have hlength := length_cancelTimer page.switcher.timers page.switcher.pending
  simp only [Switcher.dispose, follow]
  refine ⟨h.catalogue, ?_, ?_, ?_, ?_, h.mode, ?_, ?_, ?_, ?_, ?_, ?_⟩
  · simp only [hlength, h.generation]
  · exact fun i timer hi => (h.cancelled hi).1
  · simpa only [hlength] using h.ended
  · simp only [hlength, h.visited]
  · intro hnil
    simp only [h.not_transitioning hnil]
    exact h.untouched hnil
  · intro name hname
    obtain ⟨mode, hfind, hshows⟩ := h.shows name hname
    refine ⟨mode, hfind, ?_⟩
    cases htransitioning : page.switcher.transitioning with
    | false =>
      rw [htransitioning] at hshows
      exact hshows
    | true => exact hshows.endTransition (hclass mode (ModeRegistry.mem_all_of_find hfind)) hinitial
  · simp
  · simp
  · simp
  · exact fun i timer hi _ => (h.cancelled hi).2

theorem step (hname : ∀ name mode, registry.find name = .ok mode → mode.name = name)
    (hclass : ∀ mode ∈ registry.all, mode.className ≠ transitionClass)
    (hinitial : transitionClass ∉ initial) (h : page.Coherent registry initial) (event : PageEvent) :
    (page.step event).1.Coherent registry initial := by
  cases event with
  | setMode name =>
    cases hfind : registry.find (Switcher.concreteName page.preferred name) with
    | ok mode => exact h.switchTo hname hfind
    | error failure =>
      simp only [Page.step, Switcher.setMode_of_unknown _ _ (h.catalogue.symm ▸ hfind)]
      exact h
  | prefer mode => exact { h with }
  | fire i => exact h.fire hclass hinitial i
  | callback i => exact h.callback hclass hinitial i
  | install => exact h
  | dispose => exact h.dispose hclass hinitial
  | leave => exact h.dispose hclass hinitial

theorem after (hname : ∀ name mode, registry.find name = .ok mode → mode.name = name)
    (hclass : ∀ mode ∈ registry.all, mode.className ≠ transitionClass)
    (hinitial : transitionClass ∉ initial) (events : List PageEvent)
    (h : page.Coherent registry initial) : (page.after events).Coherent registry initial := by
  induction events generalizing page with
  | nil => exact h
  | cons event rest ih => exact ih (h.step hname hclass hinitial event)

end Coherent

end Page

/-- Whatever happens to a page whose modes do not use the class of a switch, its classes, its timers
and the state of its switcher fit together: a timer that is not the latest one changes nothing any
more, a known mode is switched to, and an unknown one changes nothing. -/
theorem page_coherent_after (modes : List DisplayMode) (transition : Transition) (preferred : String)
    {initial : List String}
    (hclass : ∀ mode ∈ (ModeRegistry.ofList modes).all, mode.className ≠ transitionClass)
    (hinitial : transitionClass ∉ initial) (events : List PageEvent) :
    let registry := ModeRegistry.ofList modes
    let page := (Page.start registry transition preferred initial).after events
    page.Coherent registry initial ∧
      (∀ i, i + 1 < page.switcher.timers.length → ∀ event ∈ [PageEvent.fire i, .callback i],
        ∃ ran, page.step event = (page.record i ran, [])) ∧
      ∀ name, let asked := Switcher.concreteName page.preferred name
        if registry.contains asked then
          (page.step (.setMode name)).1.visited = page.visited ++ [asked] ∧
            (page.step (.setMode name)).1.switcher.transitioning = true
        else page.switcher.setMode page.preferred name = .error (registry.unknown asked) ∧
          page.step (.setMode name) = (page, []) := by
  intro registry page
  have hcoherent : page.Coherent registry initial :=
    (Page.coherent_start transition preferred).after (fun _ _ => ModeRegistry.name_of_find) hclass
      hinitial events
  refine ⟨hcoherent, fun i holder event hevent => ?_, fun name => ?_⟩
  · obtain ⟨hfire, hcallback⟩ := hcoherent.step_older holder
    rcases List.mem_pair.mp hevent with rfl | rfl
    · exact ⟨_, hfire⟩
    · exact ⟨_, hcallback⟩
  · intro asked
    split
    · next hknown =>
      obtain ⟨mode, hmode⟩ := Option.isSome_iff_exists.mp hknown
      have hset := Switcher.setMode_of_find page.preferred name
        (hcoherent.catalogue.symm ▸ ModeRegistry.find_eq_ok_iff.mpr hmode)
      simp only [Page.step, hset]
      exact ⟨rfl, rfl⟩
    · next hunknown =>
      have hfind := ModeRegistry.find_of_not_contains (Bool.not_eq_true _ ▸ hunknown)
      have hset := Switcher.setMode_of_unknown page.preferred name
        (hcoherent.catalogue.symm ▸ hfind)
      refine ⟨hcoherent.catalogue ▸ hset, ?_⟩
      simp only [Page.step, hset]

theorem sample_page_coherent :
    let page := (Page.start .standard .standard "dark" ["app"]).after
      [.setMode "light", .install, .setMode "system", .callback 0, .prefer "midnight", .fire 1,
        .setMode "sepia"]
    page.classes = ["app", "dark"] ∧ page.visited = ["light", "dark"] ∧
      page.Coherent .standard ["app"] := by
  refine ⟨by decide, by decide, ?_⟩
  have hinitial : transitionClass ∉ ["app"] := by decide
  exact (page_coherent_after [ModeRegistry.light, ModeRegistry.dark, ModeRegistry.midnight] .standard
    "dark" (by decide) hinitial _).1

end DesignTokens
