/-!
# Futures

`asyncio.Future`: it is settled once, by its owner or by a cancellation. Cancelling a task
that awaits a bare future cancels the future, and everybody who awaits a cancelled future
gets `CancelledError`.
-/

namespace SalesData.Base

/-- What a coroutine can raise. -/
inductive Raised (E : Type) where
  | error (e : E)
  | cancelledError
  deriving DecidableEq, Repr

/-- How a coroutine ends: it returns or raises. -/
inductive Outcome (R E : Type) where
  | returned (r : R)
  | raised (e : Raised E)
  deriving DecidableEq, Repr

/-- A future. -/
inductive Future (R E : Type) where
  | pending
  | settled (o : Outcome R E)
  | cancelled
  deriving DecidableEq, Repr

namespace Future

variable {R E : Type}

/-- `fut.done()`. -/
def done : Future R E → Bool
  | pending => false
  | _ => true

/-- What `await fut` does once the future is done. -/
def get? : Future R E → Option (Outcome R E)
  | pending => none
  | settled o => some o
  | cancelled => some (.raised .cancelledError)

/-- `set_result` or `set_exception`, unless the future is done. -/
def settle (o : Outcome R E) : Future R E → Future R E
  | pending => settled o
  | f => f

/-- `fut.cancel()`. -/
def cancel : Future R E → Future R E
  | pending => cancelled
  | f => f

/-- A future that is done keeps its state when its owner settles it. -/
theorem settle_of_done {f : Future R E} (h : f.done = true) (o : Outcome R E) :
    f.settle o = f := by
  cases f with
  | pending => cases h
  | settled => rfl
  | cancelled => rfl

end Future
end SalesData.Base
