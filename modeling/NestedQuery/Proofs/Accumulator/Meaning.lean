import NestedQuery.Proofs.Accumulator.Reading

/-!
# Accumulators that mean expressions

An accumulator over the parameters of a pool means an expression if it has the value of the
expression in every reading of the pool, or of one with more parameters, whose parameters are bound
to the arguments (`Accumulator.Means`). Meaning goes along with the operators, so what is built
from accumulators that mean the operands means the whole. `Accumulator.Lists` says the same of the
list of a membership test and the set that it stands for.
-/

namespace NestedQuery

/-! ### Bound parameters -/

namespace Pool

variable {p q : Pool} {arguments : Document} {bound : List Value} {id : ParamId} {expanded : Bool}
  {e : Expr}

/-- Whether a slot is marked as a list is checked; the value stays that of the source. -/
theorem sourceValue_of_bindSlot_eq_ok {slot : Slot} {v : Value}
    (h : bindSlot arguments slot id = .ok v) : sourceValue arguments slot.source = .ok v := by
  obtain ⟨w, hw, h⟩ := Result.bind_eq_ok_iff.mp h
  split at h
  · rw [hw, h]
  · exact absurd h nofun
  · exact absurd h nofun
  · rw [hw, h]

/-- Each slot is bound at its place. -/
theorem bindSlot_of_bind_eq_ok (h : p.bind arguments = .ok bound) {slot : Slot}
    (hslot : p.slots[id]? = some slot) :
    ∃ v, bound[id]? = some v ∧ bindSlot arguments slot id = .ok v := by
  obtain ⟨hlength, hget⟩ := List.forall₂_iff_get.mp (Result.mapM_eq_ok_iff.mp h)
  obtain ⟨hid, rfl⟩ := List.getElem?_eq_some_iff.mp hslot
  have hzip : id < p.slots.zipIdx.length := by rwa [List.length_zipIdx]
  have hbound : id < bound.length := hlength ▸ hzip
  have hvalue := hget id hzip hbound
  simp only [List.get_eq_getElem, List.getElem_zipIdx, Nat.zero_add] at hvalue
  exact ⟨bound[id], List.getElem?_eq_getElem hbound, hvalue⟩

theorem getElem?_of_bind_eq_ok (h : p.bind arguments = .ok bound) {slot : Slot}
    (hslot : p.slots[id]? = some slot) :
    ∃ v, bound[id]? = some v ∧ sourceValue arguments slot.source = .ok v := by
  obtain ⟨v, hv, hvalue⟩ := bindSlot_of_bind_eq_ok h hslot
  exact ⟨v, hv, sourceValue_of_bindSlot_eq_ok hvalue⟩

/-- The parameter has the values of the expression, and it is marked as a list or not. -/
def Holds (p : Pool) (id : ParamId) (expanded : Bool) (e : Expr) : Prop :=
  ∃ source, p.slots[id]? = some ⟨source, expanded⟩ ∧
    ∀ arguments, sourceValue arguments source = e.evaluate arguments

theorem Holds.mono (h : p.Holds id expanded e) (hpq : p.slots <+: q.slots) :
    q.Holds id expanded e := by
  obtain ⟨source, hslot, hsource⟩ := h
  obtain ⟨slots, hslots⟩ := hpq
  refine ⟨source, ?_, hsource⟩
  rw [← hslots, List.getElem?_append_left (List.getElem?_eq_some_iff.mp hslot).1, hslot]

theorem Holds.isExpanded_eq (h : p.Holds id expanded e) : p.isExpanded id = expanded := by
  obtain ⟨source, hslot, -⟩ := h
  rw [isExpanded, hslot]
  rfl

theorem Holds.bound_eq (h : p.Holds id expanded e) (hbind : p.bind arguments = .ok bound) :
    bound[id]? = (e.evaluate arguments).toOption := by
  obtain ⟨source, hslot, hsource⟩ := h
  obtain ⟨v, hv, hvalue⟩ := getElem?_of_bind_eq_ok hbind hslot
  rw [← hsource arguments, hvalue, hv]
  rfl

/-! ### Growing pools -/

variable {source : ParamSource}

theorem prefix_push (p : Pool) (source : ParamSource) : p.slots <+: (p.push source).slots :=
  List.prefix_append ..

theorem holds_push (h : ∀ arguments, sourceValue arguments source = e.evaluate arguments) :
    (p.push source).Holds p.size false e :=
  ⟨source, List.getElem?_concat_length, h⟩

/-- A mark on the newest parameter leaves the others as they are. -/
theorem slots_expand_push (p : Pool) (source : ParamSource) :
    ((p.push source).expand p.size).slots = p.slots ++ [⟨source, true⟩] := by
  rw [expand, push, List.modify_eq_take_drop, size, List.take_left, List.drop_left]
  rfl

theorem prefix_expand_push (p : Pool) (source : ParamSource) :
    p.slots <+: ((p.push source).expand p.size).slots := by
  rw [slots_expand_push]
  exact List.prefix_append ..

theorem holds_expand_push (h : ∀ arguments, sourceValue arguments source = e.evaluate arguments) :
    ((p.push source).expand p.size).Holds p.size true e := by
  refine ⟨source, ?_, h⟩
  rw [slots_expand_push]
  exact List.getElem?_concat_length

end Pool

/-! ### Readings of a pool -/

/-- The reading is one of the pool, or of one with more parameters, for these arguments. -/
structure Reading.Fits (rd : Reading) (p : Pool) (arguments : Document) : Prop where
  grows : p.slots <+: rd.pool.slots
  bind_eq : rd.pool.bind arguments = .ok rd.bound

theorem Reading.Fits.mono {rd : Reading} {p q : Pool} {arguments : Document}
    (h : rd.Fits q arguments) (hpq : p.slots <+: q.slots) : rd.Fits p arguments :=
  ⟨hpq.trans h.grows, h.bind_eq⟩

theorem Reading.Fits.bound_eq {rd : Reading} {p : Pool} {arguments : Document} {id : ParamId}
    {expanded : Bool} {e : Expr} (hrd : rd.Fits p arguments) (h : p.Holds id expanded e) :
    rd.bound[id]? = (e.evaluate arguments).toOption :=
  (h.mono hrd.grows).bound_eq hrd.bind_eq

namespace Accumulator

/-- The accumulator has the value of the expression, whatever the arguments and the row are. -/
def Means (v : Accumulator Symbol) (p : Pool) (e : Expr) : Prop :=
  ∀ (rd : Reading) (arguments : Document), rd.Fits p arguments →
    rd.value? v = e.value? arguments rd.row

/-- The accumulator is a membership list with the items of the set, whatever the arguments are. -/
def Lists (v : Accumulator Symbol) (p : Pool) (set : Expr) : Prop :=
  ∀ (rd : Reading) (arguments : Document), rd.Fits p arguments →
    rd.items? v = (set.evaluate arguments).toOption.bind Value.items?

variable {p q : Pool}

theorem Means.mono {v : Accumulator Symbol} {e : Expr} (h : v.Means p e)
    (hpq : p.slots <+: q.slots) : v.Means q e :=
  fun rd arguments hrd => h rd arguments (hrd.mono hpq)

/-! ### Leaves -/

theorem means_param {id : ParamId} {expanded : Bool} {e : Expr} (h : p.Holds id expanded e)
    (he : e.readsRow = false) : (leaf (.param id)).Means p e := by
  intro rd arguments hrd
  rw [Expr.value?_eq_of_not_readsRow arguments rd.row he]
  exact hrd.bound_eq h

theorem means_chain {e : Expr} {path : List String} (h : e.rowPath? = some path) :
    (leaf (.column .row path none none)).Means p e := by
  intro rd arguments hrd
  rw [Expr.value?_of_rowPath?_eq_some arguments rd.row h]
  rfl

/-! ### Operators and functions -/

section

variable {v w : Accumulator Symbol} {e e' : Expr}

theorem Means.not (hv : v.Means p e) : (wrap .not v).Means p (.unary .not e) := by
  intro rd arguments hrd
  rw [Expr.value?_unary, Reading.value?, hv rd arguments hrd]

theorem Means.negate (hv : v.Means p e) : (wrap .negate v).Means p (.unary .negate e) := by
  intro rd arguments hrd
  rw [Expr.value?_unary, Reading.value?, hv rd arguments hrd]

theorem Means.binary {op : BinaryOp} (hin : op ≠ .isIn) (hcomma : op ≠ .comma)
    (hv : v.Means p e) (hw : w.Means p e') : (binary op v w).Means p (.binary op e e') := by
  intro rd arguments hrd
  rw [Expr.value?_binary, rd.value?_binary hin hcomma, hv rd arguments hrd, hw rd arguments hrd]

theorem Means.apply (function : Function) (hv : v.Means p e) :
    (wrap (.apply function) v).Means p (.apply function e) := by
  intro rd arguments hrd
  rw [Expr.value?_apply, Reading.value?, hv rd arguments hrd]

/-- A column carries a function in its leaf. -/
theorem Means.applyLeaf {root : Root} {path : List String} {into : Option TableId}
    (function : Function) (hv : (leaf (.column root path into none)).Means p e) :
    (leaf (.column root path into (some function))).Means p (.apply function e) := by
  intro rd arguments hrd
  rw [Expr.value?_apply, ← hv rd arguments hrd]
  exact rd.leaf?_function root path into function

end

/-! ### Cases -/

section

variable {test value otherwise : Accumulator Symbol}
  {branches : List (Accumulator Symbol × Accumulator Symbol)} {t v o : Expr}
  {bs : List (Expr × Expr)}

theorem Means.casesNil (ho : otherwise.Means p o) : (cases [] otherwise).Means p o := by
  intro rd arguments hrd
  rw [rd.value?_cases_nil, ho rd arguments hrd]

/-- A conditional is one more branch in front of a case that means its alternative. -/
theorem Means.conditional (ht : test.Means p t) (hv : value.Means p v)
    (ho : (cases branches otherwise).Means p o) :
    (cases ((test, value) :: branches) otherwise).Means p (.conditional t v o) := by
  intro rd arguments hrd
  rw [Expr.value?_conditional, rd.value?_cases_cons, ht rd arguments hrd, hv rd arguments hrd,
    ho rd arguments hrd]

/-- The branches mean the given ones, test by test and value by value. -/
def BranchesMean (p : Pool) (branches : List (Accumulator Symbol × Accumulator Symbol))
    (bs : List (Expr × Expr)) : Prop :=
  List.Forall₂ (fun branch b => branch.1.Means p b.1 ∧ branch.2.Means p b.2) branches bs

theorem BranchesMean.mono (h : BranchesMean p branches bs) (hpq : p.slots <+: q.slots) :
    BranchesMean q branches bs :=
  h.imp fun _ _ hb => ⟨hb.1.mono hpq, hb.2.mono hpq⟩

theorem BranchesMean.firstCase?_eq (h : BranchesMean p branches bs) {rd : Reading}
    {arguments : Document} (hrd : rd.Fits p arguments) :
    rd.firstCase? branches = Expr.firstCase? arguments rd.row bs := by
  induction h with
  | nil => rfl
  | cons hb _ ih =>
    rw [Reading.firstCase?, Expr.firstCase?_cons, hb.1 rd arguments hrd, hb.2 rd arguments hrd, ih]

theorem BranchesMean.firstCaseOf?_eq (h : BranchesMean p branches bs) {rd : Reading}
    {arguments : Document} (hrd : rd.Fits p arguments) (subject : Value) :
    rd.firstCaseOf? subject branches = Expr.firstCaseOf? arguments rd.row subject bs := by
  induction h with
  | nil => rfl
  | cons hb _ ih =>
    rw [Reading.firstCaseOf?, Expr.firstCaseOf?_cons, hb.1 rd arguments hrd,
      hb.2 rd arguments hrd, ih]

theorem BranchesMean.cases (h : BranchesMean p branches bs) (ho : otherwise.Means p o) :
    (cases branches otherwise).Means p (.cases bs o) := by
  intro rd arguments hrd
  rw [Expr.value?_cases, Reading.value?, h.firstCase?_eq hrd, ho rd arguments hrd]

theorem BranchesMean.casesOf {subject : Accumulator Symbol} {k : Expr}
    (h : BranchesMean p branches bs) (hk : subject.Means p k) (ho : otherwise.Means p o) :
    (casesOf subject branches otherwise).Means p (.casesOf k bs o) := by
  intro rd arguments hrd
  rw [Expr.value?_casesOf, Reading.value?, hk rd arguments hrd, ho rd arguments hrd]
  simp only [h.firstCaseOf?_eq hrd]

end

/-! ### Membership -/

section

variable {id : ParamId} {e set : Expr} {es : List Expr} {list v : Accumulator Symbol}

theorem Lists.mono (h : list.Lists p set) (hpq : p.slots <+: q.slots) : list.Lists q set :=
  fun rd arguments hrd => h rd arguments (hrd.mono hpq)

/-- A marked parameter stands for all its items. -/
theorem lists_param (h : p.Holds id true set) : (leaf (.param id)).Lists p set := by
  intro rd arguments hrd
  rw [Reading.items?, if_pos (h.mono hrd.grows).isExpanded_eq, hrd.bound_eq h]

theorem items?_param {rd : Reading} {arguments : Document} (hrd : rd.Fits p arguments)
    (h : p.Holds id false e) :
    rd.items? (leaf (.param id)) = (e.evaluate arguments).toOption.map ([·]) := by
  rw [Reading.items?, (h.mono hrd.grows).isExpanded_eq, if_neg Bool.false_ne_true, hrd.bound_eq h]

theorem lists_singleton (h : p.Holds id false e) :
    (leaf (.param id)).Lists p (.array [e]) := by
  intro rd arguments hrd
  rw [items?_param hrd h, Expr.items?_evaluate_array, Expr.toOption_evaluateAll_cons]
  cases (e.evaluate arguments).toOption <;> rfl

/-- One more item behind a list. -/
theorem Lists.comma (hlist : list.Lists p (.array es)) (h : p.Holds id false e) :
    (binary .comma list (leaf (.param id))).Lists p (.array (es ++ [e])) := by
  intro rd arguments hrd
  rw [Reading.items?, hlist rd arguments hrd, items?_param hrd h, Expr.items?_evaluate_array,
    Expr.items?_evaluate_array, Expr.toOption_evaluateAll_concat]
  simp only [Option.map_map]
  rfl

theorem Lists.isIn (hlist : list.Lists p set) (hset : set.readsRow = false) (hv : v.Means p e) :
    (binary .isIn v list).Means p (.isIn e set) := by
  intro rd arguments hrd
  rw [Expr.value?_isIn, Expr.value?_eq_of_not_readsRow arguments rd.row hset, Reading.value?,
    hv rd arguments hrd, hlist rd arguments hrd]
  simp only [Option.map_bind]
  rfl

theorem Lists.contains (hlist : list.Lists p set) (hset : set.readsRow = false)
    (hv : v.Means p e) : (binary .isIn v list).Means p (.contains set e) := by
  intro rd arguments hrd
  rw [Expr.value?_contains, hlist.isIn hset hv rd arguments hrd]

end

end Accumulator

end NestedQuery
