import CardInventory.Text.Raw

/-
# Paths

A path is kept as it is spelled, since messages show it so, and like a name it may be damaged. What
it names is its route: the steps from the root directory, or from the working directory, one for
each stretch between slashes.

Two spellings are the same path when their normal routes are equal. A normal route has no step that
stays in place, but for a point at the very start of a relative path; so repeated slashes, points
inside and slashes at the end do not count, and `..` does.
-/

namespace CardInventory

/-! ## Spellings -/

/-- A path as it is spelled. -/
structure Path where
  raw : RawText
  deriving DecidableEq, Repr

namespace Path

instance : Coe String Path := ⟨fun s => ⟨s⟩⟩

/-- The spelling as it is shown. -/
def text (p : Path) : String := p.raw.lossy

/-- The path of `name` in the directory `dir`. An absolute name stands for itself. -/
def join (dir : Path) (name : RawText) : Path :=
  if name.pieces.head? = some (.char '/') then ⟨name⟩
  else if dir.raw.pieces.getLast?.all (· == .char '/') then ⟨⟨dir.raw.pieces ++ name.pieces⟩⟩
  else ⟨⟨dir.raw.pieces ++ .char '/' :: name.pieces⟩⟩

end Path

/-! ## Routes -/

/-- One step of a route. -/
inductive Step where
  /-- Stay in the directory. -/
  | here
  /-- Go to the directory above. -/
  | up
  /-- Go to the entry of a name. -/
  | name (n : RawText)
  deriving DecidableEq, Repr

/-- The step that a stretch between slashes stands for. -/
def Step.ofSegment (segment : RawText) : Step :=
  if segment = ⟨[]⟩ ∨ segment = .ofString "." then .here
  else if segment = .ofString ".." then .up
  else .name segment

/-- The steps of a path and where they start. -/
structure Route where
  /-- Do the steps start at the root directory? -/
  absolute : Bool
  steps : List Step
  deriving DecidableEq, Repr

namespace Route

/-- The route that a text spells: one step for each stretch between slashes, so that a slash at
the end gives a step that stays in place. Only the empty text has no steps. -/
def ofText (t : RawText) : Route :=
  match t.pieces with
  | [] => ⟨false, []⟩
  | .char '/' :: rest => ⟨true, (RawText.splitAt '/' ⟨rest⟩).map Step.ofSegment⟩
  | pieces => ⟨false, (RawText.splitAt '/' ⟨pieces⟩).map Step.ofSegment⟩

/-- The route without the steps that do not count. -/
def normal (r : Route) : Route :=
  match r.absolute, r.steps with
  | false, .here :: rest => ⟨false, .here :: rest.filter (· ≠ .here)⟩
  | absolute, steps => ⟨absolute, steps.filter (· ≠ .here)⟩

/-- Is this the route of the empty path? -/
def isEmpty (r : Route) : Bool := !r.absolute && r.steps.isEmpty

/-- The route without its last step. -/
def parent? (r : Route) : Option Route :=
  if r.steps.isEmpty then none else some { r with steps := r.steps.dropLast }

/-- The name in the last step. -/
def fileName? (r : Route) : Option RawText :=
  match r.steps.getLast? with
  | some (.name n) => some n
  | _ => none

/-- The route and those of all directories above it, from the first to itself; the empty route is
none of them. -/
def lineage (r : Route) : List Route :=
  ((List.range (r.steps.length + 1)).map fun n => { r with steps := r.steps.take n }).filter
    fun r => !r.isEmpty

end Route

/-- The normal route of a path. -/
def Path.route (p : Path) : Route := (Route.ofText p.raw).normal

end CardInventory
