import CardInventory.Scan.Event

/-
# Results with what was told on the way

A run tells events while it works, and what it has told stays told, also when it fails later on. So
the events of a run stand beside its result, which may be an error, and not within it.
-/

namespace CardInventory

/-- A result that may be an error, with all that was told before it was there. -/
@[ext]
structure Logged (ε α : Type) where
  events : List Event
  result : Except ε α

namespace Logged

variable {ε ε' α β : Type}

instance : Monad (Logged ε) where
  pure a := ⟨[], .ok a⟩
  bind x f :=
    match x.result with
    | .ok a =>
      let y := f a
      ⟨x.events ++ y.events, y.result⟩
    | .error e => ⟨x.events, .error e⟩

/-- A result without any event. -/
def ofResult (result : Except ε α) : Logged ε α := ⟨[], result⟩

instance : MonadLift (Except ε) (Logged ε) := ⟨ofResult⟩

/-- Tells an event. -/
def tell (event : Event) : Logged ε Unit := ⟨[event], .ok ()⟩

/-- A value, with what was told until it was there. -/
def ofTold (told : α × List Event) : Logged ε α := ⟨told.2, .ok told.1⟩

/-- Runs to the end and goes on with the result even where it is an error. -/
def attempt (x : Logged ε α) : Logged ε' (Except ε α) := ⟨x.events, .ok x.result⟩

/-- The same run with another error. -/
def mapError (f : ε → ε') (x : Logged ε α) : Logged ε' α := ⟨x.events, x.result.mapError f⟩

/-! ## What a chain gives and what it tells -/

@[simp]
theorem result_pure (a : α) : (pure a : Logged ε α).result = .ok a := rfl

@[simp]
theorem events_pure (a : α) : (pure a : Logged ε α).events = [] := rfl

/-- The result of a chain is that of its results. -/
@[simp]
theorem result_bind (x : Logged ε α) (f : α → Logged ε β) :
    (x >>= f).result = x.result >>= fun a => (f a).result := by
  obtain ⟨events, _ | _⟩ := x <;> rfl

/-- A step that fails is the last one to tell something. -/
theorem bind_of_error {x : Logged ε α} {e : ε} (h : x.result = .error e) (f : α → Logged ε β) :
    x >>= f = ⟨x.events, .error e⟩ := by
  obtain ⟨events, result⟩ := x
  subst h
  rfl

/-- After a step that succeeds, what comes next goes on telling. -/
theorem bind_of_ok {x : Logged ε α} {a : α} (h : x.result = .ok a) (f : α → Logged ε β) :
    x >>= f = ⟨x.events ++ (f a).events, (f a).result⟩ := by
  obtain ⟨events, result⟩ := x
  subst h
  rfl

/-- After an attempt the chain goes on, whatever came of it. -/
theorem attempt_bind (x : Logged ε α) (f : Except ε α → Logged ε' β) :
    x.attempt >>= f = ⟨x.events ++ (f x.result).events, (f x.result).result⟩ := rfl

end Logged
end CardInventory
