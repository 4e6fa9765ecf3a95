import ScriptSandbox.Integer
/-!
Arithmetic progressions of integers that are never written out: their length, their elements,
membership and equality are computed from start, stop and step, and they are walked by a cursor.
-/

namespace ScriptSandbox

/-- The numbers from `start` in steps of `step`, which is not zero, up to but not including the
first that reaches `stop`. -/
structure Range where
  start : Int64
  stop : Int64
  step : Int64
deriving DecidableEq, Inhabited

namespace Range

/-- The number of elements. -/
def length (r : Range) : Nat :=
  let start := r.start.toInt
  let stop := r.stop.toInt
  let step := r.step.toInt
  if 0 < step ∧ start < stop then ((stop - start - 1) / step + 1).toNat
  else if step < 0 ∧ stop < start then ((start - stop - 1) / -step + 1).toNat
  else 0

/-- The element at a position, counted from the start. -/
def element (r : Range) (i : Nat) : Int64 := r.start + Int64.ofNat i * r.step

/-- Sums and products of words may come round, but their result is the word of the exact one. -/
theorem element_eq (r : Range) (i : Nat) :
    r.element i = Int64.ofInt (r.start.toInt + i * r.step.toInt) := by
  rw [element, Int64.ofInt_add, Int64.ofInt_mul, Int64.ofInt_toInt, Int64.ofInt_toInt,
    ← Int64.ofInt_eq_ofNat]

/-- The element at an index; a negative index counts from the end. -/
def get? (r : Range) (index : Int64) : Option Int64 :=
  let i := if index < 0 then index.toInt + r.length else index.toInt
  if 0 ≤ i ∧ i < r.length then some (r.element i.toNat) else none

/-- Whether a number is an element: it lies between the ends and a whole number of steps from the
start. -/
def contains (r : Range) (n : Int64) : Bool :=
  let inside :=
    if 0 < r.step then r.start ≤ n && n < r.stop else r.stop < n && n ≤ r.start
  inside && (n.toInt - r.start.toInt) % r.step.toInt == 0

/-- Whether two ranges have the same elements: equally many and, as far as there are elements to
tell, the same start and step. -/
def sameElements (r s : Range) : Bool :=
  r.length == s.length &&
    (r.length == 0 || (r.start == s.start && (r.length == 1 || r.step == s.step)))

/-- The elements from position `i` on, at most `n` of them. -/
def elementsFrom (r : Range) (i n : Nat) : List Int64 :=
  (List.range' i (min n (r.length - i))).map r.element

def toList (r : Range) : List Int64 := r.elementsFrom 0 r.length

/-- A place in a range, by the number of elements before it. -/
structure Cursor where
  range : Range
  position : Nat
deriving DecidableEq

/-- The place before the first element. -/
def cursor (r : Range) : Cursor := ⟨r, 0⟩

namespace Cursor

/-- The next element and the place behind it. At a position that is no word there is none. -/
def next? (c : Cursor) : Option (Int64 × Cursor) :=
  if c.range.length ≤ c.position then none
  else
    match (Integer.fit? c.position).bind c.range.get? with
    | some n => some (n, { c with position := c.position + 1 })
    | none => none

/-- The number of elements still to come. -/
def remaining (c : Cursor) : Nat := c.range.length - c.position

/-- The next `n` elements, as far as there are so many, and the place behind them. -/
def take : Nat → Cursor → List Int64 × Cursor
  | 0, c => ([], c)
  | n + 1, c =>
    match c.next? with
    | some (first, c) =>
      let (rest, c) := take n c
      (first :: rest, c)
    | none => ([], c)

end Cursor

/-- Both directions, and a range whose length exceeds every word. -/
example : (Range.mk 0 10 3).toList = [0, 3, 6, 9] ∧ (Range.mk 5 0 (-2)).toList = [5, 3, 1] ∧
    (Range.mk Integer.least Integer.greatest 1).length = 0xFFFFFFFFFFFFFFFF := by decide +kernel

end Range

end ScriptSandbox
