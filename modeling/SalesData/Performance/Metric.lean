import Mathlib.Data.Rat.Floor
import SalesData.Base.Dict
import SalesData.Base.Text

/-!
# Metric points, counters and gauges

The values that a request emits and the two simple aggregates
(`core/performance/metric.py`, `enums.py`, `exceptions.py`). Python's floats are a parameter:
only the operations that this code applies to them.
-/

namespace SalesData.Performance

open Base

/-- The exceptions that the performance code raises. `OverflowError` and `KeyError` are the
interpreter's own. -/
inductive Error
  | traceStateError (message : Text)
  | invalidTimestampError (message : Text)
  | metricStateError (message : Text)
  | profilerStateError (message : Text)
  | overflowError (message : Text)
  | keyError (key : Text)
  deriving DecidableEq, Repr

/-- `_METRIC_TYPE_MISMATCH_MESSAGE`. -/
def metricTypeMismatchMessage : Text :=
  "metric already registered with a different metric type".toList

/-- The text of `Counter.increment`'s refusal. -/
def negativeIncrementMessage : Text := "counter increments cannot be negative".toList

/-- `OverflowError` of a conversion to `float`. -/
def intTooLarge : Error := .overflowError "int too large to convert to float".toList

/-- What this code uses of Python's `float`. -/
structure Floats (F : Type) where
  /-- `0.0`. -/
  zero : F
  /-- `x + y`. -/
  add : F → F → F
  /-- `x < y`. -/
  lt : F → F → Bool
  /-- `q < x` for a number `q` that a float represents exactly. -/
  exceeds : F → Rat → Bool
  /-- `float(n)`, unless it raises `OverflowError`. -/
  ofInt : Int → Option F

/-- Conversion rounds to the nearest float, and halves up to `2 ^ 52` are floats: on which side
of such a number an integer lies is kept. -/
structure Floats.Lawful {F : Type} (fl : Floats F) : Prop where
  exceeds_ofInt : ∀ (n : Int) (x : F) (q : Rat), fl.ofInt n = some x → (2 * q).den = 1 →
    0 ≤ q → q ≤ 2 ^ 52 → (fl.exceeds x q = true ↔ q < n)

/-- Floats without rounding. -/
def Floats.exact : Floats Rat where
  zero := 0
  add := (· + ·)
  lt x y := decide (x < y)
  exceeds x q := decide (q < x)
  ofInt n := some n

/-- Without rounding every side is kept. -/
theorem Floats.lawful_exact : Floats.exact.Lawful where
  exceeds_ofInt n x q h _ _ _ := by
    cases h
    simp [Floats.exact]

/-- `MetricType` (`enums.py`). -/
inductive MetricType
  | counter | gauge | histogram | timer | event | trace
  deriving DecidableEq, Repr

/-- `MetricUnit` (`enums.py`). -/
inductive MetricUnit
  | nanoseconds | microseconds | milliseconds | seconds | count | bytes | kilobytes | megabytes
  | percent
  deriving DecidableEq, Repr

/-- `MetricValue`, an `int` or a `float`. -/
inductive MetricValue (F : Type)
  | int (n : Int)
  | float (x : F)

/-- `float(value)`. -/
def MetricValue.toFloat {F : Type} (fl : Floats F) : MetricValue F → Except Error F
  | .int n =>
    match fl.ofInt n with
    | some x => .ok x
    | none => .error intTooLarge
  | .float x => .ok x

/-- `value < 0`. -/
def MetricValue.isNegative {F : Type} (fl : Floats F) : MetricValue F → Bool
  | .int n => decide (n < 0)
  | .float x => fl.lt x fl.zero

/-- `MetricName`. -/
abbrev MetricName := Text

/-- `Tags`. -/
abbrev Tags := Dict Text Text

/-- `MetricPoint`. -/
structure MetricPoint (F : Type) where
  name : MetricName
  metricType : MetricType
  value : MetricValue F
  timestampNs : Int
  unit : MetricUnit
  tags : Tags

/-- `Counter`. -/
structure Counter (F : Type) where
  name : MetricName
  tags : Tags
  value : F

/-- `Gauge`. -/
structure Gauge (F : Type) where
  name : MetricName
  tags : Tags
  value : F

variable {F : Type} (fl : Floats F)

/-- `Counter.increment` (`metric.py:27–32`). The sum converts an `int` first. -/
def Counter.increment (counter : Counter F) (amount : MetricValue F) : Except Error (Counter F) :=
  if amount.isNegative fl then .error (.metricStateError negativeIncrementMessage)
  else
    match amount.toFloat fl with
    | .error e => .error e
    | .ok x => .ok { counter with value := fl.add counter.value x }

/-- `Gauge.set` (`metric.py:43–46`). -/
def Gauge.set (gauge : Gauge F) (value : MetricValue F) : Except Error (Gauge F) :=
  match value.toFloat fl with
  | .error e => .error e
  | .ok x => .ok { gauge with value := x }

/-- `ensure_same_type` (`metric.py:78–83`). -/
def ensureSameType (existingType incomingType : MetricType) (name : MetricName) :
    Except Error Unit :=
  if existingType = incomingType then .ok ()
  else .error (.metricStateError (name ++ ": ".toList ++ metricTypeMismatchMessage))

end SalesData.Performance
