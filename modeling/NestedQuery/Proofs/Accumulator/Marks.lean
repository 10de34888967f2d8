import NestedQuery.Proofs.Accumulator.Meaning
import NestedQuery.Proofs.Accumulator.Roles

/-!
# Marked parameters

A slot of the pool is marked as a list or not, and what is bound to it is a list just if it is
marked (`Pool.Marks.isBound`). A leaf that is the whole set of a membership test may be a
parameter of either kind, any other leaf only one that is not marked (`Pool.Admits`).
-/

namespace NestedQuery

/-- The use of a parameter, as a list or not, has its value. -/
def IsBound (bound : List Value) (use : ParamId × Bool) : Prop :=
  ∃ v, bound[use.1]? = some v ∧ v.items?.isSome = use.2

namespace Pool

variable {p q : Pool} {arguments : Document} {bound : List Value} {id : ParamId} {expanded : Bool}

/-- The pool has the slot, and it is marked as a list or not. -/
def Marks (p : Pool) (id : ParamId) (expanded : Bool) : Prop :=
  p.slots[id]?.map Slot.expanded = some expanded

theorem Marks.mono (h : p.Marks id expanded) (hpq : p.slots <+: q.slots) :
    q.Marks id expanded := by
  obtain ⟨slot, hslot, hexpanded⟩ := Option.map_eq_some_iff.mp h
  obtain ⟨slots, hslots⟩ := hpq
  rw [Marks, ← hslots, List.getElem?_append_left (List.getElem?_eq_some_iff.mp hslot).1, hslot]
  exact congrArg some hexpanded

theorem Marks.isExpanded_eq (h : p.Marks id expanded) : p.isExpanded id = expanded := by
  rw [isExpanded, h]
  rfl

theorem marks_push (p : Pool) (source : ParamSource) : (p.push source).Marks p.size false :=
  congrArg (Option.map Slot.expanded) List.getElem?_concat_length

theorem marks_expand_push (p : Pool) (source : ParamSource) :
    ((p.push source).expand p.size).Marks p.size true := by
  rw [Marks, slots_expand_push]
  exact congrArg (Option.map Slot.expanded) List.getElem?_concat_length

/-- What a slot takes is a list just if the slot is marked. -/
theorem items?_isSome_of_bindSlot_eq_ok {slot : Slot} {v : Value}
    (h : bindSlot arguments slot id = .ok v) : v.items?.isSome = slot.expanded := by
  obtain ⟨w, -, h⟩ := Result.bind_eq_ok_iff.mp h
  cases hexpanded : slot.expanded with
  | true =>
    rw [hexpanded] at h
    cases w with
    | list items => rw [← Except.ok.inj h]; rfl
    | _ => cases h
  | false =>
    rw [hexpanded] at h
    cases w with
    | list items => cases h
    | _ => rw [← Except.ok.inj h]; rfl

theorem Marks.isBound (h : p.Marks id expanded) (hbind : p.bind arguments = .ok bound) :
    IsBound bound (id, expanded) := by
  obtain ⟨slot, hslot, rfl⟩ := Option.map_eq_some_iff.mp h
  obtain ⟨v, hv, hvalue⟩ := bindSlot_of_bind_eq_ok hbind hslot
  exact ⟨v, hv, items?_isSome_of_bindSlot_eq_ok hvalue⟩

/-- The pool has the slot; it is marked as a list only if the parameter is the whole set of a
membership test. -/
def Admits (p : Pool) (id : ParamId) (isSet : Bool) : Prop :=
  ∃ expanded, p.Marks id expanded ∧ (expanded = true → isSet = true)

theorem Admits.mono {isSet : Bool} (h : p.Admits id isSet) (hpq : p.slots <+: q.slots) :
    q.Admits id isSet := by
  obtain ⟨expanded, hmarks, hset⟩ := h
  exact ⟨expanded, hmarks.mono hpq, hset⟩

theorem Admits.toSet {isSet : Bool} (h : p.Admits id isSet) : p.Admits id true := by
  obtain ⟨expanded, hmarks, -⟩ := h
  exact ⟨expanded, hmarks, fun _ => rfl⟩

/-- A parameter that is not a set on its own is not marked as a list. -/
theorem Admits.marks (h : p.Admits id false) : p.Marks id false := by
  obtain ⟨expanded, hmarks, hset⟩ := h
  cases expanded with
  | false => exact hmarks
  | true => exact absurd (hset rfl) (by simp)

theorem Admits.marks_isExpanded {isSet : Bool} (h : p.Admits id isSet) :
    p.Marks id (p.isExpanded id) := by
  obtain ⟨expanded, hmarks, -⟩ := h
  rwa [hmarks.isExpanded_eq]

end Pool

end NestedQuery
