import NestedQuery.Expr.Evaluate

/-!
# The parameter pool

Constants and arguments of a mapping become parameters of the statement. A `Pool` holds one slot
for each; `Pool.bind` computes their values for one execution. A slot that is marked as expanded
is the set of a membership test: it takes a list, and any other slot must not.
-/

namespace NestedQuery

/-- The place of a parameter in the pool. -/
abbrev ParamId := Nat

/-- Where the value of a parameter comes from. -/
inductive ParamSource where
  /-- A constant. -/
  | value (v : Value)
  /-- An expression over the arguments. -/
  | deferred (e : Expr)

instance : Inhabited ParamSource := ⟨.value .null⟩

/-- A parameter. -/
structure Slot where
  /-- Where its value comes from. -/
  source : ParamSource
  /-- Whether it is a list, with one placeholder for each item. -/
  expanded : Bool
  deriving Inhabited

/-- The parameters of a statement, in the order in which they were added. -/
structure Pool where
  /-- The slots. -/
  slots : List Slot := []
  deriving Inhabited

namespace Pool

/-- The number of parameters. -/
def size (p : Pool) : Nat :=
  p.slots.length

/-- The pool with one more parameter; its place is the old size. -/
def push (p : Pool) (source : ParamSource) : Pool :=
  ⟨p.slots ++ [⟨source, false⟩]⟩

/-- The pool with a parameter marked as a list. A place outside the pool changes nothing. -/
def expand (p : Pool) (id : ParamId) : Pool :=
  ⟨p.slots.modify id fun s => { s with expanded := true }⟩

/-- Whether a parameter is marked as a list. -/
def isExpanded (p : Pool) (id : ParamId) : Bool :=
  (p.slots[id]?.map Slot.expanded).getD false

/-- Whether some parameter is marked as a list. -/
def hasExpansions (p : Pool) : Bool :=
  p.slots.any Slot.expanded

/-! ### Binding -/

/-- The value of a parameter's source. -/
def sourceValue (arguments : Document) : ParamSource → Result Value
  | .value v => .ok v
  | .deferred e => e.evaluate arguments

/-- The value that a slot is given, checked against its mark. `id` is the slot's place. -/
def bindSlot (arguments : Document) (slot : Slot) (id : ParamId) : Result Value := do
  let v ← sourceValue arguments slot.source
  match v, slot.expanded with
  | .list items, true => .ok (.list items)
  | .list _, false => .error (.unbindable (.strayList id))
  | v, true => .error (.unbindable (.expectedList id v))
  | v, false => .ok v

/-- The values of all parameters for one execution, or the first failure. -/
def bind (p : Pool) (arguments : Document) : Result (List Value) :=
  p.slots.zipIdx.mapM fun (slot, id) => bindSlot arguments slot id

end Pool

end NestedQuery
