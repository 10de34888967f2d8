/-!
# Targets

A `Target` is the path from an element of a result to one of its values: names of object members
and positions in arrays. The empty target is the element itself.
-/

namespace NestedQuery

/-- One step of a target. -/
inductive Segment where
  /-- A named member of an object. -/
  | field (name : String)
  /-- A position in a tuple or an array. -/
  | arg (index : Nat)
  deriving Repr, DecidableEq

namespace Segment

/-- How a step appears in labels: its name, or its position after `#`. -/
def text : Segment → String
  | field name => name
  | arg index => s!"#{index}"

/-- Whether a step is a position. -/
def isArg : Segment → Bool
  | arg _ => true
  | field _ => false

/-- Names come before positions; names are in the order of their characters, positions in the
order of numbers. -/
def compare : Segment → Segment → Ordering
  | field m, field n => compareOfLessAndEq m n
  | field _, arg _ => .lt
  | arg _, field _ => .gt
  | arg i, arg j => compareOfLessAndEq i j

end Segment

/-- A path below an element. -/
abbrev Target := List Segment

namespace Target

/-- How a target appears in labels: its steps, joined by points. -/
def text (t : Target) : String :=
  String.intercalate "." (t.map Segment.text)

/-- What is left of `t` below `outer`, if `outer` is where `t` begins. -/
def below? (outer t : Target) : Option Target :=
  match outer, t with
  | [], rest => some rest
  | _ :: _, [] => none
  | o :: os, s :: ss => if o = s then below? os ss else none

/-- Whether `t` begins with `outer`. -/
def startsWith (t outer : Target) : Bool :=
  (below? outer t).isSome

/-- What is left of `t` after the step `s`, if `t` begins with it. -/
def after? (s : Segment) : Target → Option Target
  | first :: rest => if first = s then some rest else none
  | [] => none

theorem below?_eq_some_iff (outer t rest : Target) :
    below? outer t = some rest ↔ t = outer ++ rest := by
  induction outer generalizing t with
  | nil => simp [below?, eq_comm]
  | cons o os ih =>
    cases t with
    | nil => simp [below?]
    | cons s ss =>
      by_cases h : o = s
      · simp [below?, h, ih]
      · simp [below?, h, Ne.symm h]

theorem after?_cons (s : Segment) (rest : Target) : after? s (s :: rest) = some rest := by
  simp [after?]

theorem after?_eq_some_iff (s : Segment) (t rest : Target) :
    after? s t = some rest ↔ t = s :: rest := by
  cases t with
  | nil => simp [after?]
  | cons first r =>
    by_cases h : first = s
    · simp [after?, h]
    · simp [after?, h]

end Target

end NestedQuery
