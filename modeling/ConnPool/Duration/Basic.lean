/-
  Spans of time, counted in nanoseconds.

  The pool's clock, every timeout and every measured time is a `Duration`.  Nothing is rounded: a
  millisecond is a million of the unit, and the whole seconds and the rest of a span are `secs` and
  `subsecNanos`.  An instant of the pool's clock is the span since the clock started, so the age of
  something is `now - then`, and a difference that would be negative is zero.

  Spans are compared and added through their `nanos`; `le_iff`, `lt_iff`, `nanos_add` and
  `nanos_sub` take every statement about them to natural numbers.
-/

namespace ConnPool

/-- A span of time. -/
@[ext] structure Duration where
  /-- The length of the span in nanoseconds. -/
  nanos : Nat
deriving DecidableEq, Repr

/-- A point of the clock: the span since the clock started. -/
abbrev Instant := Duration

namespace Duration

def zero : Duration := ⟨0⟩

instance : Inhabited Duration := ⟨zero⟩
instance : Add Duration := ⟨fun a b => ⟨a.nanos + b.nanos⟩⟩
instance : Sub Duration := ⟨fun a b => ⟨a.nanos - b.nanos⟩⟩
instance : LE Duration := ⟨fun a b => a.nanos ≤ b.nanos⟩
instance : LT Duration := ⟨fun a b => a.nanos < b.nanos⟩

instance (a b : Duration) : Decidable (a ≤ b) := inferInstanceAs (Decidable (a.nanos ≤ b.nanos))
instance (a b : Duration) : Decidable (a < b) := inferInstanceAs (Decidable (a.nanos < b.nanos))

def ofMillis (n : Nat) : Duration := ⟨n * 1000000⟩

def ofSecs (n : Nat) : Duration := ⟨n * 1000000000⟩

/-- The whole milliseconds of a span. -/
def millis (d : Duration) : Nat := d.nanos / 1000000

/-- The whole seconds of a span. -/
def secs (d : Duration) : Nat := d.nanos / 1000000000

/-- What a span has beyond its whole seconds, in nanoseconds. -/
def subsecNanos (d : Duration) : Nat := d.nanos % 1000000000

/-! ## Laws -/

theorem le_iff {a b : Duration} : a ≤ b ↔ a.nanos ≤ b.nanos := Iff.rfl

theorem lt_iff {a b : Duration} : a < b ↔ a.nanos < b.nanos := Iff.rfl

@[simp] theorem nanos_zero : zero.nanos = 0 := rfl

@[simp] theorem nanos_add (a b : Duration) : (a + b).nanos = a.nanos + b.nanos := rfl

@[simp] theorem nanos_sub (a b : Duration) : (a - b).nanos = a.nanos - b.nanos := rfl

@[simp] theorem nanos_ofMillis (n : Nat) : (ofMillis n).nanos = n * 1000000 := rfl

@[simp] theorem nanos_ofSecs (n : Nat) : (ofSecs n).nanos = n * 1000000000 := rfl

@[simp] theorem millis_ofMillis (n : Nat) : (ofMillis n).millis = n := by
  simp only [millis, nanos_ofMillis]; omega

@[simp] theorem secs_ofSecs (n : Nat) : (ofSecs n).secs = n := by
  simp only [secs, nanos_ofSecs]; omega

end Duration

end ConnPool
