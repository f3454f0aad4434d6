import DesignTokens.Mode.Sheet

/-!
# Switching modes

A switcher holds the current mode of a page and whether a switch is still taking place. It talks to
the page by adding and removing classes and by writing a stylesheet. Setting a mode starts a timer
that ends the switch; only the timer of the latest switch may do so, however late the callback of an
older one runs.

## Main definitions

- `SinkCall` — what is asked of the page
- `Switcher` — the current mode, the transition and all timers so far
- `Switcher.setMode`, `Switcher.endTransition`, `Switcher.dispose` — its steps, with their calls
- `applyCalls` — the classes of the page after some calls
-/

namespace DesignTokens

/-- What is asked of the page. -/
inductive SinkCall where
  | add (className : String)
  | remove (className : String)
  | write (styleId sheet : String)
  deriving DecidableEq, Repr

def applyCall (classes : List String) : SinkCall → List String
  | .add className => if classes.contains className then classes else classes ++ [className]
  | .remove className => classes.filter (· ≠ className)
  | .write _ _ => classes

def applyCalls (classes : List String) (calls : List SinkCall) : List String :=
  calls.foldl applyCall classes

/-- A timer, with the generation of the switch that it ends. -/
structure SwitchTimer where
  generation : Nat
  interval : Double
  started : Bool
  cancelled : Bool
  deriving DecidableEq, Repr

/-- The state of a mode switcher. -/
structure Switcher where
  registry : ModeRegistry
  transition : Transition
  mode : Option String
  transitioning : Bool
  generation : Nat
  /-- The position of the timer that is to end the current switch. -/
  pending : Option Nat
  timers : List SwitchTimer

namespace Switcher

def start (registry : ModeRegistry) (transition : Transition) : Switcher :=
  ⟨registry, transition, none, false, 0, none, []⟩

/-- The concrete mode of a name, given the mode which the environment prefers. -/
def concreteMode (s : Switcher) (preferred name : String) : Except Failure DisplayMode :=
  s.registry.find (if name = systemMode then preferred else name)

def cancelTimer (timers : List SwitchTimer) : Option Nat → List SwitchTimer
  | some i => timers.modify i fun timer => { timer with cancelled := true }
  | none => timers

/-- The calls that make a mode the page's only one and mark the page as switching. -/
def modeCalls (s : Switcher) (target : DisplayMode) : List SinkCall :=
  ((s.registry.all.filter fun mode => mode.className ≠ target.className).map fun mode =>
      .remove mode.className) ++
    [.add target.className, .add transitionClass]

def nextTimer (s : Switcher) : SwitchTimer :=
  ⟨s.generation + 1, s.transition.seconds, true, false⟩

/-- A switch to a concrete mode: the timer of the previous switch is cancelled and a new one is
started. -/
def switchTo (s : Switcher) (target : DisplayMode) : Switcher :=
  { s with
    mode := some target.name
    transitioning := true
    generation := s.generation + 1
    pending := some s.timers.length
    timers := cancelTimer s.timers s.pending ++ [s.nextTimer] }

/-- A switch to the mode of a name, which must be known. -/
def setMode (s : Switcher) (preferred name : String) :
    Except Failure (Switcher × List SinkCall) := do
  let target ← s.concreteMode preferred name
  .ok (s.switchTo target, s.modeCalls target)

/-- The end of the switch of a generation. Nothing happens when a newer switch has begun. -/
def endTransition (s : Switcher) (generation : Nat) : Switcher × List SinkCall :=
  if generation ≠ s.generation then (s, [])
  else ({ s with transitioning := false, pending := none }, [.remove transitionClass])

def runCallback (s : Switcher) (i : Nat) : Switcher × List SinkCall :=
  match s.timers[i]? with
  | some timer => s.endTransition timer.generation
  | none => (s, [])

/-- Lets a timer run out: its callback runs unless it was cancelled. -/
def fire (s : Switcher) (i : Nat) : Switcher × List SinkCall :=
  match s.timers[i]? with
  | some timer => if timer.cancelled then (s, []) else s.endTransition timer.generation
  | none => (s, [])

/-- Ends a switch that is still taking place and cancels its timer. -/
def dispose (s : Switcher) : Switcher × List SinkCall :=
  ({ s with
      transitioning := false
      pending := none
      timers := cancelTimer s.timers s.pending },
    if s.transitioning then [.remove transitionClass] else [])

def styleId : String := "tokencraft-theme-modes"

def sheet (s : Switcher) : String :=
  s.registry.sheet s.transition

def install (s : Switcher) : Switcher × List SinkCall :=
  (s, [.write styleId s.sheet])

end Switcher

end DesignTokens
