import Mathlib.Data.List.InsertIdx
import NestedQuery.Proofs.Mapping.Weakening
import NestedQuery.Proofs.Query.Stages

/-!
# Queries with one join more

A query with one join more goes through the same stages as without it, if nothing else names the
path of the join (`QuerySpec.stages_of_insert`): the tables behind the join move on by one place
(`Embedding.insertion`), and the parameters of its condition stand between those of the clauses
before it and those of the clauses behind it (`PoolLink.behind`).
-/

namespace NestedQuery

/-! ### Lists with one item more -/

section

variable {α : Type} {l : List α} {k : Nat} {x : α}

/-- Where the items of a list are after one has been inserted at `k`. -/
def shiftFrom (k i : Nat) : Nat :=
  if i < k then i else i + 1

theorem shiftFrom_lt {i i' : Nat} (h : i < i') : shiftFrom k i < shiftFrom k i' := by
  unfold shiftFrom
  split <;> split <;> omega

theorem shiftFrom_of_lt {i : Nat} (h : i < k) : shiftFrom k i = i :=
  if_pos h

theorem shiftFrom_of_le {i : Nat} (h : k ≤ i) : shiftFrom k i = i + 1 :=
  if_neg (Nat.not_lt_of_le h)

theorem shiftFrom_ne (k i : Nat) : shiftFrom k i ≠ k := by
  unfold shiftFrom
  split <;> omega

theorem shiftFrom_lt_succ_iff {n i : Nat} (h : k ≤ n) : shiftFrom k i < n + 1 ↔ i < n := by
  unfold shiftFrom
  split <;> omega

/-- Every place but that of the new item is one of another item. -/
theorem exists_shiftFrom_eq {i' : Nat} (h : i' ≠ k) : ∃ i, shiftFrom k i = i' := by
  rcases Nat.lt_or_gt_of_ne h with hlt | hgt
  · exact ⟨i', if_pos hlt⟩
  · exact ⟨i' - 1, (if_neg (by omega)).trans (Nat.succ_pred_eq_of_pos (Nat.zero_lt_of_lt hgt))⟩

theorem shiftFrom_succ (k i : Nat) : shiftFrom (k + 1) (i + 1) = shiftFrom k i + 1 := by
  simp only [shiftFrom, Nat.add_lt_add_iff_right]
  split <;> rfl

theorem getElem?_insertIdx_shiftFrom (l : List α) (x : α) (k i : Nat) :
    (l.insertIdx k x)[shiftFrom k i]? = l[i]? := by
  rw [List.getElem?_insertIdx, shiftFrom]
  by_cases hi : i < k
  · rw [if_pos hi, if_pos hi]
  · rw [if_neg hi, if_neg (by omega), if_neg (by omega), Nat.add_sub_cancel]

theorem findIdx?_insertIdx {p : α → Bool} (hx : p x = false) (l : List α) (k : Nat) :
    (l.insertIdx k x).findIdx? p = (l.findIdx? p).map (shiftFrom k) := by
  induction k generalizing l with
  | zero =>
    rw [List.insertIdx_zero, List.findIdx?_cons, hx]
    rfl
  | succ k ih =>
    cases l with
    | nil => rfl
    | cons y ys =>
      rw [List.insertIdx_succ_cons, List.findIdx?_cons, List.findIdx?_cons, ih]
      cases p y with
      | true => rfl
      | false =>
        show Option.map _ (Option.map _ _) = Option.map _ (Option.map _ _)
        rw [Option.map_map, Option.map_map]
        exact congrArg (fun g => Option.map g _) (funext fun i => (shiftFrom_succ k i).symm)

theorem modify_insertIdx (g : α → α) (i : Nat) :
    (l.insertIdx k x).modify (shiftFrom k i) g = (l.modify i g).insertIdx k x := by
  induction k generalizing l i with
  | zero => rfl
  | succ k ih =>
    cases l with
    | nil =>
      show ([] : List α).modify _ g = (([] : List α).modify i g).insertIdx (k + 1) x
      rw [List.modify_nil, List.modify_nil]
      rfl
    | cons y ys =>
      cases i with
      | zero => rfl
      | succ i =>
        rw [shiftFrom_succ]
        exact congrArg (y :: ·) (ih i)

theorem modify_insertIdx_self (g : α → α) :
    (l.insertIdx k x).modify k g = l.insertIdx k (g x) := by
  induction k generalizing l with
  | zero => rfl
  | succ k ih =>
    cases l with
    | nil => rfl
    | cons y ys => exact congrArg (y :: ·) ih

theorem insertIdx_append_length (l r : List α) (x : α) :
    (l ++ r).insertIdx l.length x = l ++ x :: r := by
  induction l with
  | nil => rfl
  | cons y ys ih => exact congrArg (y :: ·) ih

theorem map_modify {β : Type} {f : α → β} {g : α → α} {g' : β → β} (h : ∀ x, f (g x) = g' (f x))
    (l : List α) (i : Nat) : (l.modify i g).map f = (l.map f).modify i g' := by
  induction l generalizing i with
  | nil => rw [List.modify_nil, List.map_nil, List.modify_nil]
  | cons y ys ih =>
    cases i with
    | zero => exact congrArg (· :: ys.map f) (h y)
    | succ i => exact congrArg (f y :: ·) (ih i)

theorem modify_append_of_lt {i : Nat} (h : i < l.length) (g : α → α) (r : List α) :
    (l ++ r).modify i g = l.modify i g ++ r := by
  induction l generalizing i with
  | nil => cases h
  | cons y ys ih =>
    cases i with
    | zero => rfl
    | succ i => exact congrArg (y :: ·) (ih (Nat.lt_of_succ_lt_succ h))

theorem modify_append_add (l r : List α) (i : Nat) (g : α → α) :
    (l ++ r).modify (l.length + i) g = l ++ r.modify i g := by
  induction l with
  | nil => rw [List.length_nil, Nat.zero_add, List.nil_append, List.nil_append]
  | cons y ys ih =>
    rw [List.length_cons, Nat.add_right_comm]
    exact congrArg (y :: ·) ih

end

/-! ### Places -/

/-- One table more behind the first `k` joined ones, and `d` parameters more behind the first
`m`. -/
def Embedding.insertion (k m d : Nat) : Embedding where
  table := shiftFrom (k + 1)
  param i := if i < m then i else i + d
  strictMono _ _ h := shiftFrom_lt h
  table_zero := if_pos (Nat.succ_pos k)

section

variable {k m d : Nat}

theorem insertion_param_of_lt {id : ParamId} (h : id < m) :
    (Embedding.insertion k m d).param id = id :=
  if_pos h

theorem insertion_param_of_le {id : ParamId} (h : m ≤ id) :
    (Embedding.insertion k m d).param id = id + d :=
  if_neg (Nat.not_lt_of_le h)

/-- A pool that has no more sources is no larger. -/
theorem Pool.size_le_of_prefix {p p₁ : Pool} (h : p.sources <+: p₁.sources) : p.size ≤ p₁.size := by
  have hle := h.length_le
  rwa [Pool.sources, Pool.sources, List.length_map, List.length_map] at hle

/-- A parameter of a pool within the first `m` places keeps its place. -/
theorem size_eq_param_of_push {p : Pool} {source : ParamSource} (h : (p.push source).size ≤ m) :
    p.size = (Embedding.insertion k m d).param p.size := by
  have hsize : (p.push source).size = p.size + 1 := List.length_append
  have hlt : p.size < m := by omega
  exact (insertion_param_of_lt hlt).symm

/-- Marks are moved only where they mark nothing. -/
theorem expand_param {p : Pool} (h : p.size ≤ m) (id : ParamId) :
    p.expand ((Embedding.insertion k m d).param id) = p.expand id := by
  by_cases hid : id < m
  · rw [insertion_param_of_lt hid]
  · -- Neither place is one of the pool.
    have hlength : p.slots.length ≤ id := Nat.le_trans h (Nat.le_of_not_lt hid)
    rw [insertion_param_of_le (Nat.le_of_not_lt hid), Pool.expand, Pool.expand,
      List.modify_eq_self hlength, List.modify_eq_self (Nat.le_add_right_of_le hlength)]

/-- While the clauses before the join are compiled, the parameters are the same. -/
def PoolLink.before (k m d : Nat) : PoolLink (.insertion k m d) where
  Rel p p' := p' = p
  Bound p := p.size ≤ m
  mono h := Nat.le_trans (Pool.size_le_of_prefix h)
  push source hp hbound := ⟨hp ▸ size_eq_param_of_push hbound, congrArg (Pool.push · source) hp⟩
  expand id hp hbound := (expand_param hbound id).trans (congrArg (Pool.expand · id) hp)

/-- The larger pool has the slots `own` behind the first `m` ones. -/
def Pool.Widens (m : Nat) (own : List Slot) (p p' : Pool) : Prop :=
  ∃ before after, before.length = m ∧ p.slots = before ++ after ∧
    p'.slots = before ++ (own ++ after)

namespace Pool.Widens

variable {own : List Slot} {p p' : Pool}

theorem push (h : Widens m own p p') (source : ParamSource) :
    p'.size = (Embedding.insertion k m own.length).param p.size ∧
      Widens m own (p.push source) (p'.push source) := by
  obtain ⟨before, after, rfl, hp, hp'⟩ := h
  refine ⟨?_, before, after ++ [⟨source, false⟩], rfl, ?_, ?_⟩
  · have hle : before.length ≤ p.size := by
      rw [Pool.size, hp, List.length_append]
      omega
    rw [insertion_param_of_le hle, Pool.size, Pool.size, hp, hp']
    simp only [List.length_append]
    omega
  · rw [Pool.push, hp, List.append_assoc]
  · rw [Pool.push, hp', List.append_assoc, List.append_assoc]

theorem expand (h : Widens m own p p') (id : ParamId) :
    Widens m own (p.expand id) (p'.expand ((Embedding.insertion k m own.length).param id)) := by
  obtain ⟨before, after, rfl, hp, hp'⟩ := h
  by_cases hid : id < before.length
  · refine ⟨before.modify id fun s => { s with expanded := true }, after,
      List.length_modify _ _ _, ?_, ?_⟩
    · rw [Pool.expand, hp, modify_append_of_lt hid]
    · rw [insertion_param_of_lt hid, Pool.expand, hp', modify_append_of_lt hid]
  · obtain ⟨i, rfl⟩ := Nat.exists_eq_add_of_le (Nat.le_of_not_lt hid)
    refine ⟨before, after.modify i fun s => { s with expanded := true }, rfl, ?_, ?_⟩
    · rw [Pool.expand, hp, modify_append_add]
    · have hplace : before.length + i + own.length = before.length + (own.length + i) :=
        (Nat.add_right_comm _ _ _).trans (Nat.add_assoc _ _ _)
      rw [insertion_param_of_le (Nat.le_of_not_lt hid), hplace, Pool.expand, hp',
        modify_append_add, modify_append_add]

end Pool.Widens

/-- The parameters `own` of the join stand behind the first `m` ones. -/
def PoolLink.behind (k m : Nat) (own : List Slot) : PoolLink (.insertion k m own.length) where
  Rel := Pool.Widens m own
  Bound _ := True
  mono _ _ := trivial
  push source hp _ := hp.push source
  expand id hp _ := hp.expand id

end

/-! ### Statements -/

/-- The join in the larger statement. -/
def Join.embed (f : Embedding) (j : Join) : Join :=
  { j with on? := j.on?.map (Term.embed f) }

/-- The statement `s'` is `s` with the join `j` behind the first `k` ones. -/
structure Statement.Inserts (f : Embedding) (k : Nat) (j : Join) (s s' : Statement) : Prop where
  place : k ≤ s.joins.length
  primary : s'.primary = s.primary
  joins : s'.joins = (s.joins.map (Join.embed f)).insertIdx k j
  filter : s'.filter? = s.filter?.map (Term.embed f)
  order : s'.order = s.order.map (Prod.map (Term.embed f) id)
  skip : s'.skip? = s.skip?
  take : s'.take? = s.take?
  /-- No other table has its path. -/
  paths : ∀ t ∈ s.sources, t.path ≠ j.path

namespace Statement.Inserts

variable {k m d : Nat} {j : Join} {s s' : Statement}

theorem sources (h : Inserts (.insertion k m d) k j s s') :
    s'.sources = s.sources.insertIdx (k + 1) j.toSource := by
  rw [Statement.sources, Statement.sources, List.insertIdx_succ_cons, h.primary, h.joins,
    List.map_insertIdx, List.map_map]
  rfl

theorem join? (h : Inserts (.insertion k m d) k j s s') (t : TableId) :
    s'.join? ((Embedding.insertion k m d).table t) =
      (s.join? t).map (Join.embed (.insertion k m d)) := by
  cases t with
  | zero => rw [Embedding.table_zero]; rfl
  | succ i =>
    show s'.join? (shiftFrom (k + 1) (i + 1)) = _
    rw [shiftFrom_succ, Statement.join?, Statement.join?, h.joins, getElem?_insertIdx_shiftFrom,
      List.getElem?_map]

theorem source (h : Inserts (.insertion k m d) k j s s') (t : TableId) :
    s'.source ((Embedding.insertion k m d).table t) = s.source t := by
  rw [Statement.source, Statement.source, h.primary, h.sources]
  exact congrArg (fun o => Option.getD o s.primary) (getElem?_insertIdx_shiftFrom ..)

/-- The statement holds the one without the join. -/
theorem extension (h : Inserts (.insertion k m d) k j s s') :
    s.Extends (.insertion k m d) j.path s' where
  primary := h.primary
  source := h.source
  cardinality t := by
    rw [Statement.cardinality, Statement.cardinality, h.join?, Option.map_map]
    rfl
  memberTable? name hname := by
    have hpath : (j.path == name) = false := beq_eq_false_iff_ne.mpr hname.symm
    have hfind := findIdx?_insertIdx (p := fun t : Source => t.path == name) (x := j.toSource) hpath
      s.sources (k + 1)
    unfold Statement.memberTable?
    rw [h.sources, hfind]
    split <;> rfl
  path_ne t := by
    rw [Statement.path, Statement.source]
    cases ht : s.sources[t]? with
    | none => exact h.paths _ (List.mem_cons_self ..)
    | some source => exact h.paths _ (List.mem_of_getElem? ht)

theorem setCondition (h : Inserts (.insertion k m d) k j s s') (i : Nat) (t : Term) :
    Inserts (.insertion k m d) k j (s.setCondition (i + 1) t)
      (s'.setCondition (shiftFrom k i + 1) (t.embed (.insertion k m d))) := by
  have hsame := sameTables_setCondition s (i + 1) t
  refine { h with place := ?_, joins := ?_, paths := ?_ }
  · show k ≤ (s.joins.modify i _).length
    rw [List.length_modify]
    exact h.place
  · show s'.joins.modify (shiftFrom k i) _ = ((s.joins.modify i _).map _).insertIdx k j
    rw [h.joins, modify_insertIdx]
    refine congrArg (List.insertIdx · k j) (map_modify ?_ s.joins i).symm
    exact fun _ => rfl
  · rw [Statement.sources, hsame.primary, hsame.sources]
    exact h.paths

/-- The condition of the join itself. -/
theorem setCondition_self (h : Inserts (.insertion k m d) k j s s') (t : Term) :
    Inserts (.insertion k m d) k { j with on? := some t } s (s'.setCondition (k + 1) t) := by
  refine { h with joins := ?_ }
  show s'.joins.modify k _ = _
  rw [h.joins, modify_insertIdx_self]

end Statement.Inserts

/-! ### Clauses -/

section

variable {f : Embedding} {hidden : String} {naming : Naming} {s s' : Statement} {p p' p₁ p₁' : Pool}

theorem conditionTerm_appends {e : Expr} {t : Term}
    (h : conditionTerm naming s e p = .ok (t, p₁)) : p.slots <+: p₁.slots := by
  obtain ⟨v, bindings, hv, -⟩ := conditionTerm_eq_ok_iff.mp h
  have := compileCondition_appends s e
  exact Compile.Appends.prefix_slots hv

/-- A condition or ordering key in the larger statement. -/
theorem conditionTerm_mirrors (L : PoolLink f) (hs : s.Extends f hidden s') {e : Expr}
    (he : e.avoids (s.primary.opensRow hidden) hidden) {t' : Term} (hp : L.Rel p p')
    (h : conditionTerm naming s' e p' = .ok (t', p₁')) (hbound : L.Bound p₁') :
    ∃ t p₁, conditionTerm naming s e p = .ok (t, p₁) ∧ t' = t.embed f ∧ L.Rel p₁ p₁' := by
  obtain ⟨v', bindings', hv', ht'⟩ := conditionTerm_eq_ok_iff.mp h
  have hc : Collected.Linked L hidden { pool := p } { pool := p' } :=
    ⟨hp, rfl, List.forall_mem_nil _⟩
  obtain ⟨v, ⟨p₁, bindings⟩, hv, ⟨rfl, hvisible⟩, hc₁⟩ :=
    (compileCondition_mirrors hs he).backward hc hv' hbound
  obtain rfl : bindings' = bindings := hc₁.bindings
  rw [hs.resolveTree hc₁.visible hvisible] at ht'
  obtain ⟨t, ht, rfl⟩ := Result.map_eq_ok_iff.mp ht'
  exact ⟨t, p₁, conditionTerm_eq_ok_iff.mpr ⟨v, _, hv, ht⟩, rfl, hc₁.pool⟩

end

namespace Statement

variable {naming : Naming}

theorem addConditions_append_eq_ok_iff {id : TableId} {js js' : List JoinSpec} {s : Statement}
    {p : Pool} {r : Statement × Pool} :
    addConditions naming id (js ++ js') s p = .ok r ↔ ∃ s₁ p₁,
      addConditions naming id js s p = .ok (s₁, p₁) ∧
        addConditions naming (id + js.length) js' s₁ p₁ = .ok r := by
  induction js generalizing id s p with
  | nil =>
    refine ⟨fun h => ⟨s, p, rfl, h⟩, fun ⟨s₁, p₁, hs, h⟩ => ?_⟩
    obtain ⟨rfl, rfl⟩ := Prod.mk.inj (Except.ok.inj hs)
    exact h
  | cons j js ih =>
    -- The tables of the second list are counted behind those of the first.
    rw [List.length_cons, Nat.add_comm js.length 1, ← Nat.add_assoc]
    constructor
    · intro h
      obtain ⟨t, p₂, ht, hcheck, h⟩ := addConditions_cons_eq_ok_iff.mp h
      obtain ⟨s₁, p₁, hs, h⟩ := ih.mp h
      exact ⟨s₁, p₁, addConditions_cons_eq_ok_iff.mpr ⟨t, p₂, ht, hcheck, hs⟩, h⟩
    · rintro ⟨s₁, p₁, hs, h⟩
      obtain ⟨t, p₂, ht, hcheck, hs⟩ := addConditions_cons_eq_ok_iff.mp hs
      exact addConditions_cons_eq_ok_iff.mpr ⟨t, p₂, ht, hcheck, ih.mpr ⟨s₁, p₁, hs, h⟩⟩

theorem addConditions_appends {id : TableId} {js : List JoinSpec} {s s₁ : Statement}
    {p p₁ : Pool} (h : addConditions naming id js s p = .ok (s₁, p₁)) : p.slots <+: p₁.slots := by
  induction js generalizing id s p with
  | nil =>
    obtain ⟨-, rfl⟩ := Prod.mk.inj (Except.ok.inj h)
    exact List.prefix_rfl
  | cons j js ih =>
    obtain ⟨t, p₂, ht, -, h⟩ := addConditions_cons_eq_ok_iff.mp h
    exact (conditionTerm_appends ht).trans (ih h)

theorem addFilter_appends {e? : Option Expr} {s s₁ : Statement} {p p₁ : Pool}
    (h : addFilter naming e? s p = .ok (s₁, p₁)) : p.slots <+: p₁.slots := by
  cases e? with
  | none =>
    obtain ⟨-, rfl⟩ := Prod.mk.inj (Except.ok.inj h)
    exact List.prefix_rfl
  | some e =>
    obtain ⟨t, ht, -⟩ := addFilter_some_eq_ok_iff.mp h
    exact conditionTerm_appends ht

theorem addOrder_appends {keys : List (Expr × Direction)} {s s₁ : Statement} {p p₁ : Pool}
    (h : addOrder naming keys s p = .ok (s₁, p₁)) : p.slots <+: p₁.slots := by
  induction keys generalizing s p with
  | nil =>
    obtain ⟨-, rfl⟩ := Prod.mk.inj (Except.ok.inj h)
    exact List.prefix_rfl
  | cons key keys ih =>
    obtain ⟨t, p₂, ht, h⟩ := addOrder_cons_eq_ok_iff.mp h
    exact (conditionTerm_appends ht).trans (ih h)

theorem checkJoin_of_embed {k m d i : Nat} {s s' : Statement} {t : Term}
    (h : s'.checkJoin (shiftFrom k i + 1) (t.embed (.insertion k m d)) = .ok ()) :
    s.checkJoin (i + 1) t = .ok () := by
  rw [checkJoin_eq_ok_iff] at h ⊢
  intro c hc
  have hle := h _ (Term.columns_embed _ t ▸ List.mem_map_of_mem hc)
  rw [← shiftFrom_succ] at hle
  exact (Embedding.insertion k m d).strictMono.le_iff_le.mp hle

namespace Inserts

variable {k m d : Nat} {j : Join} {s s' s₁' : Statement} {p p' p₁' : Pool}

/-- The conditions of other joins, those from `i` on in the smaller statement. -/
theorem addConditions (L : PoolLink (.insertion k m d)) {js : List JoinSpec}
    (hs : Inserts (.insertion k m d) k j s s')
    (hjs : ∀ j' ∈ js, j'.condition.avoids (s.primary.opensRow j.path) j.path) (i i' : Nat)
    (hi : ∀ n < js.length, shiftFrom k (i + n) = i' + n) (hp : L.Rel p p')
    (h : Statement.addConditions naming (i' + 1) js s' p' = .ok (s₁', p₁'))
    (hbound : L.Bound p₁') :
    ∃ s₁ p₁, Statement.addConditions naming (i + 1) js s p = .ok (s₁, p₁) ∧
      Inserts (.insertion k m d) k j s₁ s₁' ∧ s₁.primary = s.primary ∧ L.Rel p₁ p₁' := by
  induction js generalizing s s' p p' i i' with
  | nil =>
    obtain ⟨rfl, rfl⟩ := Prod.mk.inj (Except.ok.inj h)
    exact ⟨s, p, rfl, hs, rfl, hp⟩
  | cons j' js ih =>
    obtain ⟨hj, hjs⟩ := List.forall_mem_cons.mp hjs
    obtain ⟨t', p₂', ht', hcheck, h⟩ := addConditions_cons_eq_ok_iff.mp h
    -- Pools only grow, so the bound holds of every pool on the way.
    have hbound₂ : L.Bound p₂' := L.mono ((addConditions_appends h).map Slot.source) hbound
    obtain ⟨t, p₂, ht, rfl, hp₂⟩ := conditionTerm_mirrors L hs.extension hj hp ht' hbound₂
    obtain rfl : shiftFrom k i = i' := hi 0 (Nat.succ_pos _)
    have hi : ∀ n < js.length, shiftFrom k (i + 1 + n) = shiftFrom k i + 1 + n := fun n hn => by
      have hnext := hi (n + 1) (Nat.succ_lt_succ hn)
      rwa [Nat.add_comm n 1, ← Nat.add_assoc, ← Nat.add_assoc] at hnext
    obtain ⟨s₁, p₁, hrest, hs₁, hprimary, hp₁⟩ := ih (hs.setCondition i t) hjs _ _ hi hp₂ h
    exact ⟨s₁, p₁, addConditions_cons_eq_ok_iff.mpr
      ⟨t, p₂, ht, checkJoin_of_embed hcheck, hrest⟩, hs₁, hprimary, hp₁⟩

theorem addFilter (L : PoolLink (.insertion k m d)) {e? : Option Expr}
    (hs : Inserts (.insertion k m d) k j s s')
    (he : ∀ e ∈ e?, e.avoids (s.primary.opensRow j.path) j.path) (hp : L.Rel p p')
    (h : Statement.addFilter naming e? s' p' = .ok (s₁', p₁')) (hbound : L.Bound p₁') :
    ∃ s₁ p₁, Statement.addFilter naming e? s p = .ok (s₁, p₁) ∧
      Inserts (.insertion k m d) k j s₁ s₁' ∧ s₁.primary = s.primary ∧ L.Rel p₁ p₁' := by
  cases e? with
  | none =>
    obtain ⟨rfl, rfl⟩ := Prod.mk.inj (Except.ok.inj h)
    exact ⟨s, p, rfl, hs, rfl, hp⟩
  | some e =>
    obtain ⟨t', ht', rfl⟩ := addFilter_some_eq_ok_iff.mp h
    obtain ⟨t, p₁, ht, rfl, hp₁⟩ := conditionTerm_mirrors L hs.extension (he e rfl) hp ht' hbound
    exact ⟨{ s with filter? := some t }, p₁, addFilter_some_eq_ok_iff.mpr ⟨t, ht, rfl⟩,
      { hs with filter := rfl }, rfl, hp₁⟩

theorem addOrder (L : PoolLink (.insertion k m d)) {keys : List (Expr × Direction)}
    (hs : Inserts (.insertion k m d) k j s s')
    (hkeys : ∀ key ∈ keys, key.1.avoids (s.primary.opensRow j.path) j.path) (hp : L.Rel p p')
    (h : Statement.addOrder naming keys s' p' = .ok (s₁', p₁')) (hbound : ∀ p, L.Bound p) :
    ∃ s₁ p₁, Statement.addOrder naming keys s p = .ok (s₁, p₁) ∧
      Inserts (.insertion k m d) k j s₁ s₁' ∧ s₁.primary = s.primary ∧ L.Rel p₁ p₁' := by
  induction keys generalizing s s' p p' with
  | nil =>
    obtain ⟨rfl, rfl⟩ := Prod.mk.inj (Except.ok.inj h)
    exact ⟨s, p, rfl, hs, rfl, hp⟩
  | cons key keys ih =>
    obtain ⟨e, direction⟩ := key
    obtain ⟨hkey, hkeys⟩ := List.forall_mem_cons.mp hkeys
    obtain ⟨t', p₂', ht', h⟩ := addOrder_cons_eq_ok_iff.mp h
    obtain ⟨t, p₂, ht, rfl, hp₂⟩ := conditionTerm_mirrors L hs.extension hkey hp ht' (hbound _)
    -- The key is added to both statements, renumbered in the larger one.
    have hs₂ : Inserts (.insertion k m d) k j { s with order := s.order ++ [(t, direction)] }
        { s' with order := s'.order ++ [(t.embed (.insertion k m d), direction)] } := by
      refine { hs with order := ?_ }
      rw [List.map_append, hs.order]
      rfl
    obtain ⟨s₁, p₁, hrest, hs₁, hprimary, hp₁⟩ := ih hs₂ hkeys hp₂ h
    exact ⟨s₁, p₁, addOrder_cons_eq_ok_iff.mpr ⟨t, p₂, ht, hrest⟩, hs₁, hprimary, hp₁⟩

end Inserts

end Statement

/-! ### Queries -/

namespace QuerySpec

/-- No table of the query has the path, and no clause of the query names it, nor does the
mapping. -/
structure Avoids (q : QuerySpec) (path : String) (mapping : Expr) : Prop where
  primary : q.primary.path ≠ path
  joins : ∀ j ∈ q.joins, j.path ≠ path
  conditions : ∀ j ∈ q.joins, j.condition.avoids (q.primary.opensRow path) path
  filters : ∀ e ∈ q.filters, e.avoids (q.primary.opensRow path) path
  order : ∀ key ∈ q.order, key.1.avoids (q.primary.opensRow path) path
  mapping : mapping.avoids (q.primary.opensRow path) path

variable {q : QuerySpec} {path : String} {mapping : Expr} {naming : Naming}

theorem avoids_foldl_and {opensRow : Bool} {e : Expr} {es : List Expr}
    (h : ∀ e' ∈ e :: es, e'.avoids opensRow path) :
    (es.foldl (.binary .and) e).avoids opensRow path = true := by
  induction es generalizing e with
  | nil => exact h e (List.mem_cons_self ..)
  | cons e' es ih =>
    obtain ⟨he, hes⟩ := List.forall_mem_cons.mp h
    obtain ⟨he', hes⟩ := List.forall_mem_cons.mp hes
    exact ih (List.forall_mem_cons.mpr ⟨Bool.and_eq_true_iff.mpr ⟨he, he'⟩, hes⟩)

theorem Avoids.filter? (h : q.Avoids path mapping) :
    ∀ e ∈ q.filter?, e.avoids (q.primary.opensRow path) path := by
  have hfilters := h.filters
  unfold QuerySpec.filter?
  split
  · exact fun e he => absurd he (Option.not_mem_none e)
  · next e es heq =>
    rw [heq] at hfilters
    exact fun e' he' => Option.mem_some_iff.mp he' ▸ avoids_foldl_and hfilters

/-- The tables of a query with one join more. -/
theorem tables_inserts {l r : List JoinSpec} {j : JoinSpec} (hjoins : q.joins = l ++ j :: r)
    (h : Avoids { q with joins := l ++ r } j.path mapping) (m d : Nat) :
    Statement.Inserts (.insertion l.length m d) l.length { j with on? := none }
      (tables { q with joins := l ++ r }) q.tables where
  place := by
    show l.length ≤ ((l ++ r).map _).length
    rw [List.length_map, List.length_append]
    exact Nat.le_add_right ..
  primary := rfl
  joins := by
    show q.joins.map _ = (((l ++ r).map _).map (Join.embed _)).insertIdx l.length _
    rw [hjoins, List.map_map, List.map_append, List.map_append, List.map_cons]
    -- The join stands behind those before it in the list.
    have hinsert := insertIdx_append_length
      (l.map fun j : JoinSpec => ({ j with on? := none } : Join))
      (r.map fun j : JoinSpec => ({ j with on? := none } : Join)) { j with on? := none }
    rw [List.length_map] at hinsert
    exact hinsert.symm
  filter := rfl
  order := rfl
  skip := rfl
  take := rfl
  paths := by
    refine List.forall_mem_cons.mpr ⟨h.primary, fun t ht => ?_⟩
    obtain ⟨j', hj', rfl⟩ := List.mem_map.mp ht
    obtain ⟨spec, hspec, rfl⟩ := List.mem_map.mp hj'
    exact h.joins spec hspec

end QuerySpec

/-- The stages `st'` are those of `st` with the join `j` more, whose condition has the parameters
`own`. -/
structure Stages.Inserts (k : Nat) (before own : List Slot) (j : Join) (st st' : Stages) :
    Prop where
  statement : st.statement.Inserts (.insertion k before.length own.length) k j st'.statement
  tables : st'.compiled.tables =
    st.compiled.tables.map (MappedTable.embed (.insertion k before.length own.length))
  outputs : st'.outputs =
    st.outputs.map (Output.map (Cell.embed (.insertion k before.length own.length)))
  pool : ∃ after, st.pool.slots = before ++ after ∧ st'.pool.slots = before ++ (own ++ after)

namespace Statement.Extends

variable {f : Embedding} {hidden : String} {s s' : Statement}

theorem resolveOutputs (hs : s.Extends f hidden s') {naming : Naming} {bindings : List Binding}
    (hbindings : AreVisible hidden bindings) {outputs : List (Output Symbol)}
    (h : ∀ o ∈ outputs, o.value.IsVisible hidden) :
    QuerySpec.resolveOutputs ⟨s', naming, bindings⟩
        (outputs.map (Output.map (Symbol.embed f))) =
      List.map (Output.map (Cell.embed f)) <$>
        QuerySpec.resolveOutputs ⟨s, naming, bindings⟩ outputs := by
  unfold QuerySpec.resolveOutputs
  induction outputs with
  | nil => rfl
  | cons o os ih =>
    obtain ⟨ho, hos⟩ := List.forall_mem_cons.mp h
    have htree : Resolver.resolveTree ⟨s', naming, bindings⟩ _ = _ := hs.resolveTree hbindings ho
    rw [List.map_cons, List.mapM_cons, List.mapM_cons, ih hos]
    dsimp only [Output.map]
    rw [htree]
    simp only [map_bind, bind_map_left, bind_assoc, pure_bind, map_pure]
    rfl

end Statement.Extends

namespace QuerySpec

variable {q : QuerySpec} {mapping : Expr} {naming : Naming}

/-- **The stages without a join that nothing else names.** -/
theorem stages_of_insert {l r : List JoinSpec} {j : JoinSpec} (hjoins : q.joins = l ++ j :: r)
    (havoids : Avoids { q with joins := l ++ r } j.path mapping) {st' : Stages}
    (h : q.stages naming mapping = .ok st') :
    ∃ st s₁ before own on, stages naming { q with joins := l ++ r } mapping = .ok st ∧
      q.tables.addConditions naming 1 l {} = .ok (s₁, ⟨before⟩) ∧
      conditionTerm naming s₁ j.condition ⟨before⟩ = .ok (on, ⟨before ++ own⟩) ∧
      st.Inserts l.length before own { j with on? := some on } st' := by
  obtain ⟨p', bindings', hstatement', hc', ho'⟩ := stages_eq_ok_iff.mp h
  obtain ⟨⟨s₂', p₂'⟩, hconditions', hstatement'⟩ := Result.bind_eq_ok_iff.mp hstatement'
  obtain ⟨⟨s₃', p₃'⟩, hfilter', horder'⟩ := Result.bind_eq_ok_iff.mp hstatement'
  rw [hjoins] at hconditions'
  obtain ⟨s₁', ⟨before⟩, hl', hconditions'⟩ :=
    Statement.addConditions_append_eq_ok_iff.mp hconditions'
  obtain ⟨⟨on, p₁'⟩, hon, hconditions'⟩ := Result.bind_eq_ok_iff.mp hconditions'
  obtain ⟨_, -, hr'⟩ := Result.bind_eq_ok_iff.mp hconditions'
  obtain ⟨own, hown⟩ := conditionTerm_appends hon
  obtain rfl : p₁' = ⟨before ++ own⟩ := congrArg Pool.mk hown.symm
  -- Up to the join, the parameters are the same.
  have hstart := tables_inserts hjoins havoids before.length own.length
  obtain ⟨s₁, p₁, hl, hs₁, hprimary₁, hp₁⟩ := hstart.addConditions
    (.before l.length before.length own.length)
    (fun j' hj' => havoids.conditions j' (List.mem_append_left r hj')) 0 0
    (fun n hn => if_pos (by omega)) rfl hl' (Nat.le_refl before.length)
  obtain rfl : p₁ = ⟨before⟩ := hp₁.symm
  -- From there on, those of the join stand between the others.
  have hlink : (PoolLink.behind l.length before.length own).Rel ⟨before⟩ ⟨before ++ own⟩ :=
    ⟨before, [], rfl, (List.append_nil _).symm, congrArg (before ++ ·) (List.append_nil own).symm⟩
  rw [Nat.add_comm 1 l.length] at hr'
  have hopen₁ : s₁.primary.opensRow j.path = q.primary.opensRow j.path := by rw [hprimary₁]; rfl
  obtain ⟨s₂, p₂, hr, hs₂, hprimary₂, hp₂⟩ := (hs₁.setCondition_self on).addConditions
    (.behind l.length before.length own)
    (fun j' hj' => hopen₁ ▸ havoids.conditions j' (List.mem_append_right l hj'))
    l.length (l.length + 1) (fun n _ => (if_neg (by omega)).trans (by omega)) hlink hr' trivial
  have hopen₂ : s₂.primary.opensRow j.path = q.primary.opensRow j.path := by rw [hprimary₂, hopen₁]
  obtain ⟨s₃, p₃, hfilter, hs₃, hprimary₃, hp₃⟩ := hs₂.addFilter
    (.behind l.length before.length own) (hopen₂ ▸ havoids.filter?) hp₂ hfilter' trivial
  have hopen₃ : s₃.primary.opensRow j.path = q.primary.opensRow j.path := by rw [hprimary₃, hopen₂]
  obtain ⟨s, p, horder, hs, hprimary, hp⟩ := hs₃.addOrder
    (.behind l.length before.length own) (hopen₃ ▸ havoids.order) hp₃ horder' fun _ => trivial
  have hopen : s.primary.opensRow j.path = q.primary.opensRow j.path := by rw [hprimary, hopen₃]
  have hc : Collected.Linked (.behind l.length before.length own) j.path { pool := p }
      { pool := p' } := ⟨hp, rfl, List.forall_mem_nil _⟩
  obtain ⟨compiled, ⟨pool, bindings⟩, hc, hembeds, hlinked⟩ :=
    (compileMapping_mirrors hs.extension (hopen ▸ havoids.mapping)).backward hc hc' trivial
  obtain rfl : bindings' = bindings := hlinked.bindings
  rw [hembeds.eq] at ho'
  obtain ⟨outputs, ho, houtputs⟩ := Result.map_eq_ok_iff.mp
    ((hs.extension.resolveOutputs hlinked.visible hembeds.of_visible).symm.trans ho')
  refine ⟨⟨s, compiled, outputs, pool⟩, s₁', before, own, on, ?_, hl', hon, hs, hembeds.tables,
    houtputs.symm, ?_⟩
  · refine stages_eq_ok_iff.mpr ⟨p, _, ?_, hc, ho⟩
    have hconditions := Statement.addConditions_append_eq_ok_iff.mpr
      ⟨s₁, ⟨before⟩, hl, (Nat.add_comm 1 l.length) ▸ hr⟩
    exact Result.bind_eq_ok_iff.mpr ⟨_, hconditions, Result.bind_eq_ok_iff.mpr ⟨_, hfilter, horder⟩⟩
  · have := compileMapping_appends st'.statement mapping
    have hprefix := (((Statement.addConditions_appends hr').trans
      (Statement.addFilter_appends hfilter')).trans
      (Statement.addOrder_appends horder')).trans (Compile.Appends.prefix_slots hc')
    obtain ⟨after', hafter'⟩ := hprefix
    obtain ⟨before', after, hlength, hslots, hslots'⟩ := hlinked.pool
    rw [List.append_assoc, hslots'] at hafter'
    obtain ⟨rfl, -⟩ := List.append_inj hafter' hlength.symm
    exact ⟨after, hslots, hslots'⟩

end QuerySpec

end NestedQuery
