import DesignTokens.Proofs.Mode.Switching

/-!
# Disposed pages

Once a switcher is disposed of, and until its page is switched to a mode again, the mode, the classes
of the page and the state of the switcher stay as they are. What may still come is the callback of a
timer. That of an older switch comes to nothing; that of the latest one asks for the class of a switch
to be taken away once more, although the class is no longer there.

## Main definitions

- `Page.asked` — what is asked of a page during several events
- `Page.Undisturbed` — no event switches the page to a mode or installs the stylesheet
- `Switcher.runsLatest` — the callback of the latest timer runs in an event
- `Page.Orderly`, `Page.Resting` — what every event preserves, and what holds after a disposal
-/

namespace DesignTokens

/-- Whether the callback of the latest timer runs in an event. -/
def Switcher.runsLatest (s : Switcher) : PageEvent → Bool
  | .callback i => i + 1 = s.timers.length
  | .fire i => i + 1 = s.timers.length && s.isDue i
  | _ => false

theorem Switcher.exists_of_setMode {s : Switcher} {preferred name : String}
    {outcome : Switcher × List SinkCall} (h : s.setMode preferred name = .ok outcome) :
    ∃ target, outcome = (s.switchTo target, s.modeCalls target) := by
  obtain ⟨target, -, houtcome⟩ := bind_eq_ok_iff.mp h
  exact ⟨target, (Except.ok.inj houtcome).symm⟩

namespace Page

/-- What is asked of a page during several events. -/
def asked (page : Page) : List PageEvent → List SinkCall
  | [] => []
  | event :: rest => (page.step event).2 ++ asked (page.step event).1 rest

/-- Whether an event switches a page to a mode. -/
def switches (page : Page) : PageEvent → Bool
  | .setMode name => (page.switcher.setMode page.preferred name).isOk
  | _ => false

/-- Of several events none switches a page to a mode or installs the stylesheet. -/
def Undisturbed (page : Page) : List PageEvent → Prop
  | [] => True
  | event :: rest =>
    event ≠ .install ∧ page.switches event = false ∧ (page.step event).1.Undisturbed rest

/-- What holds of a page after any events, whatever the classes of its modes are: every timer ends the
switch that it was made for, and between two switches the page has no class of a switch. -/
structure Orderly (page : Page) : Prop where
  generation : page.switcher.generation = page.switcher.timers.length
  numbered : ∀ i timer, page.switcher.timers[i]? = some timer → timer.generation = i + 1
  unmarked : page.switcher.transitioning = false → page.switcher.timers ≠ [] →
    transitionClass ∉ page.classes

/-- A page on which no switch takes place and no timer is held. -/
structure Resting (page : Page) : Prop extends page.Orderly where
  transitioning : page.switcher.transitioning = false
  pending : page.switcher.pending = none

variable {page other : Page} {event : PageEvent}

theorem not_mem_applyCalls_remove (className : String) (classes : List String) :
    className ∉ applyCalls classes [.remove className] := by
  change className ∉ applyCall classes (.remove className)
  simp [mem_applyCall_remove]

namespace Orderly

theorem start (registry : ModeRegistry) (transition : Transition) (preferred : String)
    (classes : List String) : (Page.start registry transition preferred classes).Orderly := by
  constructor <;> simp [Page.start, Switcher.start]

/-- Cancelling a timer keeps the switches that the timers are for. -/
theorem numbered_cancelTimer (h : page.Orderly) (pending : Option Nat) (i : Nat) (timer : SwitchTimer)
    (htimer : (Switcher.cancelTimer page.switcher.timers pending)[i]? = some timer) :
    timer.generation = i + 1 := by
  rw [getElem?_cancelTimer] at htimer
  obtain ⟨old, hold, rfl⟩ := Option.map_eq_some_iff.mp htimer
  split <;> exact h.numbered i old hold

theorem switchTo (h : page.Orderly) (target : DisplayMode) (classes : List String) :
    ({ page with switcher := page.switcher.switchTo target, classes := classes } : Page).Orderly := by
  have hlength := length_cancelTimer page.switcher.timers page.switcher.pending
  refine ⟨by simp [Switcher.switchTo, hlength, h.generation], fun i timer htimer => ?_, nofun⟩
  simp only [Switcher.switchTo, List.getElem?_append, hlength] at htimer
  split at htimer
  · exact h.numbered_cancelTimer _ i timer htimer
  -- The new timer stands last and is made for the new generation.
  · obtain ⟨hi, rfl⟩ := List.getElem?_eq_some_iff.mp htimer
    have : i = page.switcher.timers.length := by
      rw [List.length_singleton] at hi
      omega
    simp [Switcher.nextTimer, h.generation, this]

theorem endTransition (h : page.Orderly) (generation : Nat) :
    (page.follow (page.switcher.endTransition generation)).Orderly := by
  unfold Switcher.endTransition
  split
  · exact h
  · exact ⟨h.generation, h.numbered, fun _ _ => not_mem_applyCalls_remove _ _⟩

theorem runCallback (h : page.Orderly) (i : Nat) :
    (page.follow (page.switcher.runCallback i)).Orderly := by
  unfold Switcher.runCallback
  split
  · exact h.endTransition _
  · exact h

theorem fire (h : page.Orderly) (i : Nat) : (page.follow (page.switcher.fire i)).Orderly := by
  unfold Switcher.fire
  split
  · split
    · exact h
    · exact h.endTransition _
  · exact h

theorem dispose (h : page.Orderly) : (page.follow page.switcher.dispose).Resting := by
  refine ⟨⟨?_, h.numbered_cancelTimer _, fun _ htimers => ?_⟩, rfl, rfl⟩
  · exact h.generation.trans (length_cancelTimer _ _).symm
  · have htimers : page.switcher.timers ≠ [] := by
      rintro hnil
      rw [follow, Switcher.dispose, hnil] at htimers
      cases hpending : page.switcher.pending <;> simp [Switcher.cancelTimer, hpending] at htimers
    cases htransitioning : page.switcher.transitioning with
    | true =>
      simp only [follow, Switcher.dispose, htransitioning, if_true]
      exact not_mem_applyCalls_remove _ _
    | false =>
      simp only [follow, Switcher.dispose, htransitioning]
      exact h.unmarked htransitioning htimers

theorem step (h : page.Orderly) (event : PageEvent) : (page.step event).1.Orderly := by
  cases event with
  | setMode name =>
    cases hset : page.switcher.setMode page.preferred name with
    | ok outcome =>
      obtain ⟨target, rfl⟩ := Switcher.exists_of_setMode hset
      simp only [Page.step, hset]
      exact { h.switchTo target _ with }
    | error failure =>
      simp only [Page.step, hset]
      exact h
  | prefer mode => exact { h with }
  | fire i => exact { h.fire i with }
  | callback i => exact { h.runCallback i with }
  | install => exact h
  | dispose => exact h.dispose.toOrderly
  | leave => exact h.dispose.toOrderly

theorem after (h : page.Orderly) (events : List PageEvent) : (page.after events).Orderly := by
  induction events generalizing page with
  | nil => exact h
  | cons event rest ih => exact ih (h.step event)

end Orderly

namespace Resting

/-- Whether a page is at rest depends on its switcher and its classes only. -/
theorem congr (h : page.Resting) (hswitcher : other.switcher = page.switcher)
    (hclasses : other.classes = page.classes) : other.Resting := by
  refine ⟨⟨?_, ?_, ?_⟩, ?_, ?_⟩
  all_goals rw [hswitcher]
  · exact h.generation
  · exact h.numbered
  · exact hclasses ▸ h.unmarked
  · exact h.transitioning
  · exact h.pending

/-- The end of a switch changes nothing; for the latest switch it asks for the class of a switch to be
taken away all the same. -/
theorem endTransition (h : page.Resting) (generation : Nat) :
    page.switcher.endTransition generation = (page.switcher,
      if generation = page.switcher.generation then [.remove transitionClass] else []) := by
  have hsame : { page.switcher with transitioning := false, pending := none } = page.switcher := by
    rw [← h.transitioning, ← h.pending]
  by_cases heq : generation = page.switcher.generation
  · rw [Switcher.endTransition, if_neg (not_not.mpr heq), if_pos heq, hsame]
  · rw [Switcher.endTransition, if_pos heq, if_neg heq]

theorem endTransition_of_timer (h : page.Resting) {i : Nat} {timer : SwitchTimer}
    (htimer : page.switcher.timers[i]? = some timer) :
    page.switcher.endTransition timer.generation = (page.switcher,
      if i + 1 = page.switcher.timers.length then [.remove transitionClass] else []) := by
  rw [h.endTransition, h.numbered i timer htimer, h.generation]

theorem runCallback (h : page.Resting) (i : Nat) : page.switcher.runCallback i = (page.switcher,
    if page.switcher.runsLatest (.callback i) then [.remove transitionClass] else []) := by
  cases htimer : page.switcher.timers[i]? with
  | none =>
    have hlength := List.getElem?_eq_none_iff.mp htimer
    have hne : i + 1 ≠ page.switcher.timers.length := by omega
    simp [Switcher.runCallback, htimer, Switcher.runsLatest, hne]
  | some timer =>
    rw [Switcher.runCallback_of_timer htimer, h.endTransition_of_timer htimer]
    simp [Switcher.runsLatest]

theorem fire (h : page.Resting) (i : Nat) : page.switcher.fire i = (page.switcher,
    if page.switcher.runsLatest (.fire i) then [.remove transitionClass] else []) := by
  cases htimer : page.switcher.timers[i]? with
  | none => simp [Switcher.fire, htimer, Switcher.runsLatest, Switcher.isDue]
  | some timer =>
    cases hcancelled : timer.cancelled <;>
      simp [Switcher.fire, htimer, Switcher.runsLatest, Switcher.isDue, hcancelled,
        h.endTransition_of_timer htimer]

theorem dispose (h : page.Resting) : page.switcher.dispose = (page.switcher, []) := by
  have hsame : { page.switcher with transitioning := false, pending := none } = page.switcher := by
    rw [← h.transitioning, ← h.pending]
  rw [Switcher.dispose, h.transitioning, h.pending]
  exact congrArg (·, []) hsame

/-- Taking away the class of a switch leaves the classes as they are. -/
theorem applyCalls_eq (h : page.Resting) {ran : Bool}
    (htimers : ran = true → page.switcher.timers ≠ []) :
    applyCalls page.classes (if ran then [.remove transitionClass] else []) = page.classes := by
  cases ran with
  | false => rfl
  | true =>
    have habsent := h.unmarked h.transitioning (htimers rfl)
    refine List.filter_eq_self.mpr fun className hmem => ?_
    have hne : className ≠ transitionClass := fun heq => habsent (heq ▸ hmem)
    simpa using hne

theorem timers_ne_nil {s : Switcher} (h : s.runsLatest event = true) : s.timers ≠ [] := by
  rintro hnil
  cases event <;> simp [Switcher.runsLatest, hnil] at h

/-- An event that neither switches the page nor installs the stylesheet changes neither the switcher
nor the classes, and asks for nothing unless the callback of the latest timer runs. -/
theorem step (h : page.Resting) (hinstall : event ≠ .install) (hswitch : page.switches event = false) :
    (page.step event).1.switcher = page.switcher ∧ (page.step event).1.classes = page.classes ∧
      (page.step event).2 =
        if page.switcher.runsLatest event then [.remove transitionClass] else [] := by
  cases event with
  | setMode name =>
    cases hset : page.switcher.setMode page.preferred name with
    | ok outcome => simp [switches, hset, Except.isOk, Except.toBool] at hswitch
    | error failure =>
      have hstep : page.step (.setMode name) = (page, []) := by simp only [Page.step, hset]
      rw [hstep]
      exact ⟨rfl, rfl, rfl⟩
  | prefer mode => exact ⟨rfl, rfl, rfl⟩
  | fire i =>
    simp only [Page.step, h.fire i, and_true]
    exact ⟨rfl, h.applyCalls_eq timers_ne_nil⟩
  | callback i =>
    simp only [Page.step, h.runCallback i, and_true]
    exact ⟨rfl, h.applyCalls_eq timers_ne_nil⟩
  | install => exact absurd rfl hinstall
  | dispose | leave =>
    simp only [Page.step, h.dispose]
    exact ⟨rfl, rfl, rfl⟩

theorem after (h : page.Resting) (events : List PageEvent) (hevents : page.Undisturbed events) :
    (page.after events).switcher = page.switcher ∧ (page.after events).classes = page.classes ∧
      page.asked events = .replicate (events.countP page.switcher.runsLatest)
        (.remove transitionClass) := by
  induction events generalizing page with
  | nil => exact ⟨rfl, rfl, rfl⟩
  | cons event rest ih =>
    obtain ⟨hinstall, hswitch, hrest⟩ := hevents
    obtain ⟨hswitcher, hclasses, hcalls⟩ := h.step hinstall hswitch
    obtain ⟨hlater, hkept, hasked⟩ := ih (h.congr hswitcher hclasses) hrest
    refine ⟨hlater.trans hswitcher, hkept.trans hclasses, ?_⟩
    rw [asked, hcalls, hasked, hswitcher, List.countP_cons]
    split <;> simp [List.replicate_succ]

end Resting

end Page

/-- After a switcher was disposed of, whatever it did before, and as long as its page is not switched
to a mode and the stylesheet is not installed, its mode stays, no switch takes place, and the classes
of the page stay. Each time the callback of the latest timer runs, the class of a switch is taken away
once more; nothing else is asked of the page. -/
theorem disposed_page_rests (registry : ModeRegistry) (transition : Transition) (preferred : String)
    (initial : List String) (before : List PageEvent) :
    let page := (Page.start registry transition preferred initial).after before
    ∀ ending ∈ [PageEvent.dispose, .leave], ∀ events,
      let disposed := (page.step ending).1
      disposed.Undisturbed events →
        let later := disposed.after events
        later.switcher = disposed.switcher ∧ later.switcher.mode = page.switcher.mode ∧
          later.switcher.transitioning = false ∧ later.classes = disposed.classes ∧
          disposed.asked events = .replicate (events.countP disposed.switcher.runsLatest)
            (.remove transitionClass) ∧
          (disposed.asked events = [] ↔
            ∀ event ∈ events, disposed.switcher.runsLatest event = false) := by
  intro page ending hending events disposed hevents later
  have hdisposed : disposed = page.follow page.switcher.dispose := by
    rcases List.mem_pair.mp hending with rfl | rfl <;> rfl
  have hresting : disposed.Resting := by
    rw [hdisposed]
    exact ((Page.Orderly.start registry transition preferred initial).after before).dispose
  obtain ⟨hswitcher, hclasses, hasked⟩ := hresting.after events hevents
  refine ⟨hswitcher, ?_, ?_, hclasses, hasked, ?_⟩
  · rw [hswitcher, hdisposed]
    rfl
  · rw [hswitcher, hresting.transitioning]
  · rw [hasked, List.replicate_eq_nil_iff, List.countP_eq_zero]
    simp only [Bool.not_eq_true]

theorem sample_disposed_page_rests :
    let page := (Page.start .standard .standard "dark" ["app"]).after
      [.setMode "light", .setMode "system"]
    let disposed := (page.step .leave).1
    let events := [PageEvent.callback 0, .fire 1, .setMode "sepia", .dispose, .prefer "light"]
    disposed.classes = ["app", "dark"] ∧ (disposed.after events).classes = ["app", "dark"] ∧
      (disposed.after events).switcher = disposed.switcher ∧ disposed.asked events = [] := by
  have hevents : ((((Page.start .standard .standard "dark" ["app"]).after
      [.setMode "light", .setMode "system"]).step .leave).1).Undisturbed
        [.callback 0, .fire 1, .setMode "sepia", .dispose, .prefer "light"] :=
    ⟨nofun, rfl, nofun, rfl, nofun, by decide, nofun, rfl, nofun, rfl, trivial⟩
  obtain ⟨hswitcher, -, -, hclasses, -, hasked⟩ := disposed_page_rests .standard .standard "dark"
    ["app"] [.setMode "light", .setMode "system"] .leave (by decide) _ hevents
  have hbefore : (((Page.start .standard .standard "dark" ["app"]).after
      [.setMode "light", .setMode "system"]).step .leave).1.classes = ["app", "dark"] := by decide
  exact ⟨hbefore, hclasses.trans hbefore, hswitcher, hasked.mpr (by decide)⟩

/-- The callback of the latest timer asks for something after the disposal. -/
theorem exists_call_after_disposal : ∃ disposed : Page,
    disposed = (((Page.start .standard .standard "light" []).after [.setMode "dark"]).step
        .dispose).1 ∧
      disposed.Undisturbed [.callback 0] ∧ disposed.asked [.callback 0] = [.remove transitionClass] :=
  ⟨_, rfl, ⟨nofun, rfl, trivial⟩, by decide⟩

end DesignTokens
