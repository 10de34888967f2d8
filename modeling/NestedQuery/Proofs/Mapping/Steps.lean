import NestedQuery.Mapping.Compile
import NestedQuery.Proofs.Result
import NestedQuery.Proofs.Yields

/-!
# What the steps of the compiler yield

One lemma for each step that the compiler takes on its way through an expression: what the step
yields if it succeeds, and what it collects. Results about whole expressions are put together from
these, without a look at how the steps are made.
-/

namespace NestedQuery

/-! ### Collecting -/

namespace Compile

theorem yields_within_iff {α : Type} {e : Expr} {x : Compile α} {c c' : Collected} {a : α} :
    Yields (within e x) c a c' ↔ Yields x c a c' :=
  yields_tryCatch_throw_iff

theorem yields_ofResult_iff {α : Type} {x : Result α} {c c' : Collected} {a : α} :
    Yields (ofResult x) c a c' ↔ x = .ok a ∧ c = c' := by
  cases x with
  | error e => exact iff_of_false not_yields_throw fun h => nomatch h.1
  | ok b => rw [ofResult, yields_pure_iff, Except.ok.injEq]

theorem yields_register_iff {source : ParamSource} {c c' : Collected} {id : ParamId} :
    Yields (register source) c id c' ↔
      c.pool.size = id ∧ { c with pool := c.pool.push source } = c' := by
  show ((Except.ok c.pool.size, { c with pool := c.pool.push source }) :
    Except Error ParamId × Collected) = (.ok id, c') ↔ _
  rw [Prod.mk.injEq, Except.ok.injEq]

/-- Looking up a path collects nothing. -/
theorem yields_lookup_iff {s : Statement} {root : Root} {path : List String} {c c' : Collected}
    {l? : Option Lookup} :
    Yields (lookup s root path) c l? c' ↔
      (∃ path', qualify c.bindings root path = .ok path' ∧ s.lookup? path' = l?) ∧ c = c' := by
  simp only [lookup, yields_bind_iff, yields_get_iff, yields_ofResult_iff, yields_pure_iff]
  constructor
  · rintro ⟨_, _, ⟨rfl, rfl⟩, path', _, ⟨hpath', rfl⟩, hl, rfl⟩
    exact ⟨⟨path', hpath', hl⟩, rfl⟩
  · rintro ⟨⟨path', hpath', hl⟩, rfl⟩
    exact ⟨c, c, ⟨rfl, rfl⟩, path', c, ⟨hpath', rfl⟩, hl, rfl⟩

end Compile

/-! ### One value -/

theorem plainChain?_eq_some_iff {v : Accumulator Symbol} {root : Root} {path : List String} :
    plainChain? v = some (root, path) ↔ v = chainLeaf root path := by
  unfold plainChain?
  split
  · rw [Option.some.injEq, Prod.mk.injEq, chainLeaf, Accumulator.leaf.injEq, Symbol.column.injEq]
    simp only [and_true]
  · rename_i hchain
    exact iff_of_false nofun fun h => hchain _ _ h

namespace Compiled

variable {r : Compiled} {o : Output Symbol} {root : Root} {path : List String}

theorem value?_eq_some_iff : r.value? = some o ↔ r.outputs = [o] ∧ o.target = [] := by
  unfold value?
  split
  · rename_i o' houtputs
    rw [houtputs, List.singleton_inj, Option.ite_none_right_eq_some, Option.some.injEq, and_comm]
    exact and_congr_right fun ho => by rw [ho]
  · rename_i houtputs
    exact iff_of_false nofun fun h => houtputs o h.1

theorem mem_outputs_of_value? (h : r.value? = some o) : o ∈ r.outputs := by
  rw [(value?_eq_some_iff.mp h).1]
  exact List.mem_singleton_self o

/-- Outputs below steps are not one value. -/
theorem value?_eq_none (h : ∀ o ∈ r.outputs, o.target ≠ []) : r.value? = none :=
  Option.eq_none_iff_forall_ne_some.mpr fun o ho =>
    h o (mem_outputs_of_value? ho) (value?_eq_some_iff.mp ho).2

theorem chain?_eq_none (h : ∀ o ∈ r.outputs, o.target ≠ []) : r.chain? = none := by
  rw [chain?, value?_eq_none h, Option.bind_none]

theorem chain?_eq_some_iff :
    r.chain? = some (root, path) ↔ ∃ o, r.value? = some o ∧ o.value = chainLeaf root path := by
  simp only [chain?, Option.bind_eq_some_iff, plainChain?_eq_some_iff]

end Compiled

open Compile

variable {s : Statement} {c c' : Collected}

/-! ### Chains -/

theorem compileChain_yields {root : Root} {path : List String} {tables : List MappedTable}
    {r : Compiled} (h : Yields (compileChain s root path tables) c r c') :
    c = c' ∧ ∃ type, r = .ofValue (chainLeaf root path) type tables := by
  obtain ⟨type, c₁, htype, h⟩ := yields_bind_iff.mp h
  obtain ⟨rfl, rfl⟩ := yields_pure_iff.mp h
  obtain ⟨l?, c₂, hl, h⟩ := yields_bind_iff.mp htype
  obtain ⟨-, rfl⟩ := yields_lookup_iff.mp hl
  refine ⟨?_, type, rfl⟩
  split at h <;> exact (yields_pure_iff.mp h).2

/-- What a path that leads to a whole table or shape stands for. -/
def Whole.toLookup : Whole → Lookup
  | shape => .shape
  | table id t => .table id t

/-- Looking for a whole table or shape collects nothing, and finds what a chain leads to. -/
theorem whole?_yields {r : Compiled} {w? : Option (Whole × Root × List String)}
    (h : Yields (whole? s r) c w? c') :
    c = c' ∧ ∀ whole root path, w? = some (whole, root, path) →
      r.chain? = some (root, path) ∧ ∃ path', qualify c.bindings root path = .ok path' ∧
        s.lookup? path' = some whole.toLookup := by
  unfold whole? at h
  split at h
  · obtain ⟨rfl, rfl⟩ := yields_pure_iff.mp h
    exact ⟨rfl, nofun⟩
  · rename_i root path hchain
    obtain ⟨l?, c₁, hlookup, h⟩ := yields_bind_iff.mp h
    obtain ⟨⟨path', hpath', hl⟩, rfl⟩ := yields_lookup_iff.mp hlookup
    split at h
    all_goals
      obtain ⟨rfl, rfl⟩ := yields_pure_iff.mp h
      refine ⟨rfl, fun whole root' path'' heq => ?_⟩
    · obtain ⟨rfl, rfl, rfl⟩ := heq
      exact ⟨hchain, path', hpath', hl⟩
    · obtain ⟨rfl, rfl, rfl⟩ := heq
      exact ⟨hchain, path', hpath', hl⟩
    · exact absurd heq nofun

/-! ### Parameters -/

/-- A constant is evaluated once, and an expression over the arguments at each execution. -/
theorem registerParameter_yields {e : Expr} {id : ParamId} {type : ValueType}
    (h : Yields (registerParameter e) c (id, type) c') :
    ∃ source, id = c.pool.size ∧ c' = { c with pool := c.pool.push source } ∧
      (source = .deferred e ∨
        ∃ v, e.readsArgs = false ∧ e.evaluate .null = .ok v ∧ source = .value v) := by
  unfold registerParameter at h
  split at h
  · obtain ⟨id', c₁, hid, h⟩ := yields_bind_iff.mp h
    obtain ⟨heq, rfl⟩ := yields_pure_iff.mp h
    obtain ⟨rfl, -⟩ := Prod.mk.inj heq
    obtain ⟨rfl, rfl⟩ := yields_register_iff.mp hid
    exact ⟨.deferred e, rfl, rfl, .inl rfl⟩
  · rename_i hargs
    obtain ⟨v, c₁, hv, h⟩ := yields_bind_iff.mp h
    obtain ⟨hvalue, rfl⟩ := yields_ofResult_iff.mp (yields_within_iff.mp hv)
    obtain ⟨id', c₂, hid, h⟩ := yields_bind_iff.mp h
    obtain ⟨heq, rfl⟩ := yields_pure_iff.mp h
    obtain ⟨rfl, -⟩ := Prod.mk.inj heq
    obtain ⟨rfl, rfl⟩ := yields_register_iff.mp hid
    exact ⟨.value v, rfl, rfl, .inr ⟨v, Bool.not_eq_true _ ▸ hargs, hvalue, rfl⟩⟩

theorem compileParameter_yields {e : Expr} {r : Compiled}
    (h : Yields (compileParameter e) c r c') :
    ∃ id type, Yields (registerParameter e) c (id, type) c' ∧
      r = .ofValue (.leaf (.param id)) type := by
  obtain ⟨⟨id, type⟩, c₁, hid, h⟩ := yields_bind_iff.mp h
  obtain ⟨rfl, rfl⟩ := yields_pure_iff.mp h
  exact ⟨id, type, hid, rfl⟩

/-! ### Operands -/

theorem toOperand_yields {e : Expr} {r : Compiled} {o : Operand}
    (h : Yields (toOperand s e r) c o c') :
    c = c' ∧ o.tables = r.tables ∧ ∃ out, r.value? = some out ∧ o.value = out.value := by
  obtain ⟨w?, c₁, hw, h⟩ := yields_bind_iff.mp h
  obtain ⟨rfl, -⟩ := whole?_yields hw
  split at h
  · exact absurd h not_yields_throw
  · exact absurd h not_yields_throw
  · split at h
    · rename_i out hout
      obtain ⟨rfl, rfl⟩ := yields_pure_iff.mp h
      exact ⟨rfl, rfl, out, hout, rfl⟩
    · exact absurd h not_yields_throw

/-- An operand is the value of the result behind it. -/
theorem operandOf_yields {parent child : Expr} {action : Compile Compiled} {o : Operand}
    (h : Yields (operandOf s parent child action) c o c') :
    ∃ r, Yields action c r c' ∧ o.tables = r.tables ∧
      ∃ out, r.value? = some out ∧ o.value = out.value := by
  obtain ⟨r, c₁, hr, h⟩ := yields_bind_iff.mp h
  obtain ⟨rfl, ho⟩ := toOperand_yields (yields_within_iff.mp h)
  exact ⟨r, yields_within_iff.mp hr, ho⟩

/-! ### Membership -/

theorem membershipItem_yields {e : Expr} {v : Accumulator Symbol}
    (h : Yields (membershipItem e) c v c') :
    e.readsRow = false ∧
      ∃ id type, Yields (registerParameter e) c (id, type) c' ∧ v = .leaf (.param id) := by
  unfold membershipItem at h
  split at h
  · exact absurd h not_yields_throw
  · rename_i hrow
    obtain ⟨⟨id, type⟩, c₁, hid, h⟩ := yields_bind_iff.mp h
    obtain ⟨rfl, rfl⟩ := yields_pure_iff.mp h
    exact ⟨Bool.not_eq_true _ ▸ hrow, id, type, hid, rfl⟩

/-- The list of a membership test is a parameter that is marked as a list, or the items of an array
one after another. -/
theorem membershipList_yields {set : Expr} {v : Accumulator Symbol}
    (h : Yields (membershipList set) c v c') :
    (set.readsRow = false ∧ ∃ id c₁, v = .leaf (.param id) ∧
      c' = { c₁ with pool := c₁.pool.expand id } ∧
      ((set = .array [] ∧ Yields (register (.value (.list []))) c id c₁) ∨
        ∃ type, Yields (registerParameter set) c (id, type) c₁)) ∨
    ∃ item items first c₁, set = .array (item :: items) ∧ Yields (membershipItem item) c first c₁ ∧
      Yields (membershipItems first items) c₁ v c' := by
  unfold membershipList at h
  split at h
  · obtain ⟨id, c₁, hid, h⟩ := yields_bind_iff.mp h
    obtain ⟨⟨⟩, c₂, hexpand, h⟩ := yields_bind_iff.mp h
    obtain rfl := yields_modify_iff.mp hexpand
    obtain ⟨rfl, rfl⟩ := yields_pure_iff.mp h
    exact .inl ⟨rfl, id, c₁, rfl, rfl, .inl ⟨rfl, hid⟩⟩
  · -- An array that reads the row is written item by item.
    rename_i item items
    obtain ⟨first, c₁, hfirst, h⟩ := yields_bind_iff.mp h
    exact .inr ⟨item, items, first, c₁, rfl, hfirst, h⟩
  · split at h
    · exact absurd h not_yields_throw
    · rename_i hrow
      obtain ⟨⟨id, type⟩, c₁, hid, h⟩ := yields_bind_iff.mp h
      obtain ⟨⟨⟩, c₂, hexpand, h⟩ := yields_bind_iff.mp h
      obtain rfl := yields_modify_iff.mp hexpand
      obtain ⟨rfl, rfl⟩ := yields_pure_iff.mp h
      exact .inl ⟨Bool.not_eq_true _ ▸ hrow, id, c₁, rfl, rfl, .inr ⟨type, hid⟩⟩

theorem compileMembership_yields {o : Operand} {set : Expr} {r : Compiled}
    (h : Yields (compileMembership o set) c r c') :
    ∃ list, Yields (membershipList set) c list c' ∧
      r = .ofValue (.binary .isIn o.value list) .bool o.tables := by
  obtain ⟨list, c₁, hlist, h⟩ := yields_bind_iff.mp h
  obtain ⟨rfl, rfl⟩ := yields_pure_iff.mp h
  exact ⟨list, hlist, rfl⟩

/-! ### Collections -/

/-- An aggregate is folded over the value of its source, or over the row numbers of a whole table
that it counts. -/
theorem compileAggregate_yields {scope : Scope} {e : Expr} {function : Aggregate} {r a : Compiled}
    (h : Yields (compileAggregate s scope e function r) c a c') :
    c = c' ∧ ∃ out value tables, r.value? = some out ∧
      a = .ofValue (.wrap (.aggregate function) (value.map (.foldedInto scope.table)))
        (function.type out.type) (tables.map fun t => { t with aggregated := true }) ∧
      ((Yields (whole? s r) c none c ∧ value = out.value ∧ tables = r.tables) ∨
        ∃ id table root path, Yields (whole? s r) c (some (.table id table, root, path)) c ∧
          function = .count ∧ value = chainLeaf root (path ++ [rowIdColumn]) ∧
          tables = r.tables ++ [⟨id, [], true, false⟩]) := by
  obtain ⟨w?, c₁, hw, h⟩ := yields_bind_iff.mp h
  obtain ⟨rfl, -⟩ := whole?_yields hw
  cases hvalue : r.value? with
  | none =>
    rw [hvalue] at h
    exact absurd h not_yields_throw
  | some out =>
    rw [hvalue] at h
    rcases w? with _ | ⟨_ | ⟨id, table⟩, root, path⟩
    · obtain ⟨⟨value, tables⟩, c₂, hsource, h⟩ := yields_bind_iff.mp h
      obtain ⟨heq, rfl⟩ := yields_pure_iff.mp hsource
      obtain ⟨rfl, rfl⟩ := Prod.mk.inj heq
      obtain ⟨rfl, rfl⟩ := yields_pure_iff.mp h
      exact ⟨rfl, out, _, _, rfl, rfl, .inl ⟨hw, rfl, rfl⟩⟩
    · obtain ⟨_, _, hrefuse, -⟩ := yields_bind_iff.mp h
      exact absurd hrefuse not_yields_throw
    · dsimp only at h
      split at h
      · -- A whole table has no value; only its rows can be counted.
        rename_i hcount
        obtain ⟨⟨value, tables⟩, c₂, hsource, h⟩ := yields_bind_iff.mp h
        obtain ⟨heq, rfl⟩ := yields_pure_iff.mp hsource
        obtain ⟨rfl, rfl⟩ := Prod.mk.inj heq
        obtain ⟨rfl, rfl⟩ := yields_pure_iff.mp h
        exact ⟨rfl, out, _, _, rfl, rfl, .inr ⟨id, table, root, path, hw, hcount, rfl, rfl⟩⟩
      · obtain ⟨_, _, hrefuse, -⟩ := yields_bind_iff.mp h
        exact absurd hrefuse not_yields_throw

/-- A `select` ranges over a chain that does not lead to the whole shape. -/
theorem compileRange_yields {e : Expr} {r : Compiled} {range : Range}
    (h : Yields (compileRange s e r) c range c') :
    ∃ root path l?, r.chain? = some (root, path) ∧ Yields (lookup s root path) c l? c ∧
      l? ≠ some .shape ∧ range.tables = r.tables ∧
      ∀ id, range.table? = some id → ∃ table, l? = some (.table id table) := by
  unfold compileRange at h
  split at h
  · rename_i root path hchain
    obtain ⟨l?, c₁, hl, h⟩ := yields_bind_iff.mp h
    obtain ⟨-, rfl⟩ := yields_lookup_iff.mp hl
    refine ⟨root, path, l?, hchain, hl, ?_⟩
    split at h
    · exact absurd h not_yields_throw
    · -- The rows of a table are read through a binding of their own.
      rename_i id table
      obtain ⟨b, c₂, -, h⟩ := yields_bind_iff.mp h
      obtain ⟨rfl, rfl⟩ := yields_pure_iff.mp h
      exact ⟨nofun, rfl, fun id' hid => ⟨table, by rw [Option.some.inj hid]⟩⟩
    · rename_i hshape _
      obtain ⟨b, c₂, -, h⟩ := yields_bind_iff.mp h
      obtain ⟨rfl, rfl⟩ := yields_pure_iff.mp h
      exact ⟨hshape, rfl, nofun⟩
  · exact absurd h not_yields_throw

end NestedQuery
