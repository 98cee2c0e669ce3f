/-!
Cooperative cancellation. A run polls a request that is set from outside; since the request may
come at any moment, it is given by what each poll would answer.
-/

namespace BslLint

/-- The answers of the polls still to come, and how many were made. -/
structure Cancellation where
  answers : Nat → Bool
  polls : Nat := 0

namespace Cancellation

/-- No poll is ever answered by a request. -/
def never : Cancellation := { answers := fun _ => false }

/-- The request stands before the first poll. -/
def requested : Cancellation := { answers := fun _ => true }

def isRequested (c : Cancellation) : Bool := c.answers c.polls

def poll (c : Cancellation) : Bool × Cancellation :=
  (c.isRequested, { c with polls := c.polls + 1 })

/-- Sets the request: every later poll is answered by it. -/
def cancel (c : Cancellation) : Cancellation := { c with answers := fun _ => true }

end Cancellation

end BslLint
