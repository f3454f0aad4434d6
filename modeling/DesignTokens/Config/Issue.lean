import DesignTokens.Text.Pieces

/-!
# Issues of a document's types

A document is checked against the types of the configuration as a whole: every issue is reported,
in the order of the declared fields. A location is a path of keys, list positions and, where several
types are allowed, the type that was tried.

## Main definitions

- `Issue` — a location and a complaint
- `Checked` — a value, or all issues that stand against it
-/

namespace DesignTokens

/-- What a value should have been. -/
inductive Complaint where
  | required
  | text
  | integer
  | number
  | boolean
  | clearBoolean
  | list
  | mapping
  | model (name : String)
  deriving DecidableEq, Repr

/-- The wording of a complaint. -/
def Complaint.message : Complaint → String
  | .required => "Field required"
  | .text => "Input should be a valid string"
  | .integer => "Input should be a valid integer"
  | .number => "Input should be a valid number"
  | .boolean => "Input should be a valid boolean"
  | .clearBoolean => "Input should be a valid boolean, unable to interpret input"
  | .list => "Input should be a valid list"
  | .mapping => "Input should be a valid dictionary"
  | .model name => s!"Input should be a valid dictionary or instance of {name}"

/-- A complaint about the value at a location. -/
structure Issue where
  location : List String
  complaint : Complaint
  deriving DecidableEq, Repr

def Issue.message (issue : Issue) : String :=
  if issue.location.isEmpty then issue.complaint.message
  else Text.join "." issue.location ++ ": " ++ issue.complaint.message

def Issue.below (step : String) (issue : Issue) : Issue :=
  ⟨step :: issue.location, issue.complaint⟩

/-- A value, or all issues that stand against it, of which there is at least one. -/
inductive Checked (α : Type) where
  | valid (a : α)
  | faulty (issues : List Issue) {nonempty : issues ≠ []}

namespace Checked

variable {α β : Type}

def issues : Checked α → List Issue
  | valid _ => []
  | faulty issues => issues

def value? : Checked α → Option α
  | valid a => some a
  | faulty _ => none

def map (f : α → β) : Checked α → Checked β
  | valid a => valid (f a)
  | @faulty _ issues h => @faulty _ issues h

/-- A function and its argument, checked side by side: the issues of both are kept. -/
def apply : Checked (α → β) → Checked α → Checked β
  | valid f, valid a => valid (f a)
  | valid _, @faulty _ issues h => @faulty _ issues h
  | @faulty _ issues h, valid _ => @faulty _ issues h
  | @faulty _ issues h, faulty more => @faulty _ (issues ++ more) (by simp [h])

instance : Applicative Checked where
  pure := valid
  map := map
  seq f a := apply f (a ())

def complain (complaint : Complaint) : Checked α :=
  @faulty _ [⟨[], complaint⟩] (by simp)

def below (step : String) : Checked α → Checked α
  | valid a => valid a
  | @faulty _ issues h => @faulty _ (issues.map (Issue.below step)) (by simp [h])

/-- Checks every item with its position; the issues of all of them are kept. -/
def ofList (check : α → Checked β) : Nat → List α → Checked (List β)
  | _, [] => valid []
  | position, a :: rest =>
    List.cons <$> (check a).below (toString position) <*> ofList check (position + 1) rest

/-- Checks the value of every entry; the issues of all of them are kept. -/
def ofEntries (check : α → Checked β) : List (String × α) → Checked (List (String × β))
  | [] => valid []
  | (key, a) :: rest =>
    (fun b more => (key, b) :: more) <$> (check a).below key <*> ofEntries check rest

/-- Tries two types; when neither fits, the issues of both are kept, each below its name. -/
def orElse (nameOfFirst nameOfSecond : String) (first second : Checked α) : Checked α :=
  match first, second with
  | valid a, _ => valid a
  | faulty _, valid a => valid a
  | @faulty _ issues h, faulty more =>
    @faulty _ (issues.map (Issue.below nameOfFirst) ++ more.map (Issue.below nameOfSecond))
      (by simp [h])

@[simp] theorem map_eq_valid_iff (f : α → β) (x : Checked α) (b : β) :
    f <$> x = valid b ↔ ∃ a, x = valid a ∧ f a = b := by
  cases x <;> simp [Functor.map, map]

@[simp] theorem seq_eq_valid_iff (f : Checked (α → β)) (x : Checked α) (b : β) :
    f <*> x = valid b ↔ ∃ g, f = valid g ∧ ∃ a, x = valid a ∧ g a = b := by
  cases f <;> cases x <;> simp [Seq.seq, apply]

@[simp] theorem below_eq_valid_iff (step : String) (x : Checked α) (a : α) :
    x.below step = valid a ↔ x = valid a := by
  cases x <;> simp [below]

@[simp] theorem complain_ne_valid (complaint : Complaint) (a : α) :
    complain complaint ≠ valid a := by
  simp [complain]

theorem orElse_eq_valid_iff (m n : String) (x y : Checked α) (a : α) :
    orElse m n x y = valid a ↔ x = valid a ∨ (∀ b, x ≠ valid b) ∧ y = valid a := by
  cases x <;> cases y <;> simp [orElse]

/-- A check without issues has a value, and only such a check. -/
theorem issues_eq_nil_iff (x : Checked α) : x.issues = [] ↔ ∃ a, x = valid a := by
  cases x with
  | valid a => simp [issues]
  | @faulty issues nonempty => simpa [Checked.issues] using nonempty

@[simp] theorem value?_eq_some_iff (x : Checked α) (a : α) : x.value? = some a ↔ x = valid a := by
  cases x <;> simp [value?]

end Checked

end DesignTokens
