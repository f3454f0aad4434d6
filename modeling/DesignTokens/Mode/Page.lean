import DesignTokens.Mode.Switch

/-!
# Pages

What happens to a page that is switched between modes: requests for a mode, a change of the mode
which the environment prefers, timers that run out, callbacks that come late, the installation of the
stylesheet and the end of the switcher. A page keeps a record of the modes that it was switched to
and of the timers whose callback has run.

## Main definitions

- `PageEvent` — what happens to a page
- `Page` — a switcher with the classes that it set, and the record
- `Page.step`, `Page.after` — a page after one event, and after several
-/

namespace DesignTokens

/-- What happens to a page. -/
inductive PageEvent where
  /-- A mode is asked for. -/
  | setMode (name : String)
  /-- The environment prefers another mode. -/
  | prefer (mode : String)
  /-- A timer runs out. -/
  | fire (timer : Nat)
  /-- The callback of a timer runs, whatever became of the timer. -/
  | callback (timer : Nat)
  | install
  | dispose
  /-- The context that the switcher was made for is left. -/
  | leave
  deriving DecidableEq, Repr

namespace Switcher

/-- The name of the concrete mode that a name asks for. -/
def concreteName (preferred name : String) : String :=
  if name = systemMode then preferred else name

def hasTimer (s : Switcher) (i : Nat) : Bool :=
  (s.timers[i]?).isSome

/-- Whether the callback of a timer runs when the timer runs out. -/
def isDue (s : Switcher) (i : Nat) : Bool :=
  (s.timers[i]?).any fun timer => !timer.cancelled

end Switcher

/-- A page and its switcher. -/
structure Page where
  switcher : Switcher
  /-- The mode which the environment prefers. -/
  preferred : String
  classes : List String
  /-- The modes that were switched to, the current one last. -/
  visited : List String
  /-- The timers whose callback has run. -/
  ended : List Nat

namespace Page

def start (registry : ModeRegistry) (transition : Transition) (preferred : String)
    (classes : List String) : Page :=
  ⟨.start registry transition, preferred, classes, [], []⟩

/-- A page whose switcher did something. -/
def follow (page : Page) (outcome : Switcher × List SinkCall) : Page :=
  { page with switcher := outcome.1, classes := applyCalls page.classes outcome.2 }

/-- A page on which the callback of a timer ran, if it did. -/
def record (page : Page) (i : Nat) (ran : Bool) : Page :=
  { page with ended := if ran then page.ended ++ [i] else page.ended }

/-- A page after an event, and what was asked of it. A mode that is not known changes nothing. -/
def step (page : Page) : PageEvent → Page × List SinkCall
  | .setMode name =>
    match page.switcher.setMode page.preferred name with
    | .ok outcome =>
      ({ page.follow outcome with
          visited := page.visited ++ [Switcher.concreteName page.preferred name] }, outcome.2)
    | .error _ => (page, [])
  | .prefer mode => ({ page with preferred := mode }, [])
  | .fire i =>
    let outcome := page.switcher.fire i
    ((page.follow outcome).record i (page.switcher.isDue i), outcome.2)
  | .callback i =>
    let outcome := page.switcher.runCallback i
    ((page.follow outcome).record i (page.switcher.hasTimer i), outcome.2)
  | .install => (page.follow page.switcher.install, page.switcher.install.2)
  | .dispose | .leave => (page.follow page.switcher.dispose, page.switcher.dispose.2)

/-- A page after several events. -/
def after (page : Page) (events : List PageEvent) : Page :=
  events.foldl (fun page event => (page.step event).1) page

end Page

end DesignTokens
