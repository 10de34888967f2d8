import NestedQuery.Proofs.Graph.Chains

/-!
# What a row does

`Plan.Enters` says what a row does to the elements of one level: nothing if it has no chain there,
nothing if its chain is known, and otherwise one new element. A row does just this at every level
(`push_yields`), because a visit at one level leaves the elements of the other levels alone. What
every row keeps of the elements of a level therefore holds after all rows (`forM_push_keeps`).
-/

namespace NestedQuery

/-- What a row does to the elements of the level at the place `i`. -/
inductive Plan.Enters (p : Plan) (r : Row) (i : Nat) (level : Level) (es : List Element) :
    List Element → Prop
  /-- The row has no chain here. -/
  | absent : p.chain? r i = none → Enters p r i level es es
  /-- The row has the chain of an element, and agrees with it about the witnesses. -/
  | known {e : Element} : e ∈ es → p.chain? r i = some e.chain →
      Graph.checkWitnesses level e.witnesses (p.witnessNumbers r level) = .ok () →
      Enters p r i level es es
  /-- The row has a chain that is new. -/
  | made {parent : Chain} {id : Int64} {cells : List (Target × Document)} :
      p.chain? r i = some (parent ++ [id]) → (∀ e ∈ es, e.chain ≠ parent ++ [id]) →
      p.cells? r i = some cells →
      (level.parent?.isSome → level.single → ∀ e ∈ es, e.chain.dropLast ≠ parent) →
      Enters p r i level es (es ++ [⟨i, parent ++ [id], cells, p.witnessNumbers r level⟩])

namespace Graph

open Build

/-! ### What a row has visited -/

/-- A row has visited elements with these chains: each stands at its place, on its level. -/
structure Visits (es : List Element) (visited : List Visited) (chains : List (Option Chain)) :
    Prop where
  /-- The chains of the elements. -/
  chains_eq : visited.map (Option.map Prod.snd) = chains
  /-- The places of the elements. -/
  element : ∀ (i place : Nat) (k : Chain), visited[i]? = some (some (place, k)) →
    ∃ e, es[place]? = some e ∧ e.level = i ∧ e.chain = k

variable {es es' : List Element} {visited : List Visited} {chains : List (Option Chain)}
  {level : Level}

theorem visits_nil (es : List Element) : Visits es [] [] where
  chains_eq := rfl
  element _ _ _ h := absurd h (by simp)

/-- What a level hangs below is what the row has visited at its parent. -/
theorem Visits.above (h : Visits es visited chains) {parent? : Option Nat} {k : Chain}
    (habove : above? level visited = some (parent?, k)) :
    level.parentChain? chains = some k ∧ Above es level parent? k := by
  rw [above?] at habove
  cases hparent : level.parent? with
  | none =>
    rw [hparent, Option.some.injEq] at habove
    obtain ⟨rfl, rfl⟩ := Prod.mk.inj habove
    exact ⟨level.parentChain?_root hparent chains, .root hparent⟩
  | some i =>
    rw [hparent] at habove
    obtain ⟨⟨place, k'⟩, hvisited, heq⟩ := Option.map_eq_some_iff.mp habove
    obtain ⟨rfl, rfl⟩ := Prod.mk.inj heq
    rw [Option.join_eq_some_iff] at hvisited
    obtain ⟨e, he, rfl, rfl⟩ := h.element i place k' hvisited
    refine ⟨?_, .below hparent he⟩
    rw [level.parentChain?_below hparent, ← h.chains_eq, List.getElem?_map, hvisited]
    rfl

theorem Visits.above_none (h : Visits es visited chains) (habove : above? level visited = none) :
    level.parentChain? chains = none := by
  rw [above?] at habove
  cases hparent : level.parent? with
  | none =>
    rw [hparent] at habove
    exact absurd habove (by simp)
  | some i =>
    rw [hparent] at habove
    have hvisited := Option.map_eq_none_iff.mp habove
    rw [level.parentChain?_below hparent, ← h.chains_eq, List.getElem?_map]
    cases hi : visited[i]? with
    | none => rfl
    | some v =>
      rw [hi, Option.join_some] at hvisited
      rw [hvisited]
      rfl

/-- The visit at the next level, which may have made an element. -/
theorem Visits.concat (h : Visits es visited chains) (hes : es <+: es') {v : Visited}
    (hv : ∀ place k, v = some (place, k) →
      ∃ e, es'[place]? = some e ∧ e.level = visited.length ∧ e.chain = k) :
    Visits es' (visited ++ [v]) (chains ++ [v.map Prod.snd]) where
  chains_eq := by rw [List.map_append, h.chains_eq, List.map_singleton]
  element i place k hi := by
    rcases getElem?_concat_eq_some_iff.mp hi with hold | ⟨rfl, hlast⟩
    · obtain ⟨e, he, hlevel, hchain⟩ := h.element i place k hold
      obtain ⟨rest, rfl⟩ := hes
      exact ⟨e, by rw [List.getElem?_append_left (List.getElem?_eq_some_iff.mp he).1, he],
        hlevel, hchain⟩
    · exact hv place k hlast.symm

/-! ### The levels of a row -/

/-- A visit enters the elements of its own level and leaves the other levels alone. -/
theorem visit_enters {p : Plan} (hp : p.WellFormed) {ps : Positions} {r : Row} {index place : Nat}
    {parent? : Option Nat} {k : Chain} {id : Int64} {g g' : Graph}
    (hps : p.positions r.columns = .ok ps) (hg : g.Represents p es)
    (hlevel : p.levels[index]? = some level) (habove : Above es level parent? k)
    (hchain : p.chain? r index = some (k ++ [id]))
    (h : Yields (visit p ps r (ps.rowNumbers r) index level parent? (k ++ [id]) id) g place g') :
    g'.positions? = g.positions? ∧ ∃ es', g'.Represents p es' ∧ es <+: es' ∧
      (∃ e, es'[place]? = some e ∧ e.level = index ∧ e.chain = k ++ [id]) ∧
      p.Enters r index level (elementsAt es index) (elementsAt es' index) ∧
      ∀ i, i ≠ index → elementsAt es' i = elementsAt es i := by
  obtain ⟨hpositions, ⟨e, he, helevel, hek, hcheck, rfl⟩ |
    ⟨hnew, rfl, hfree, cells, hcells, hg'⟩⟩ := visit_yields hp hps hg hlevel habove h
  · -- A known element is left as it is.
    refine ⟨rfl, es, hg, List.prefix_rfl, ⟨e, he, helevel, hek⟩, ?_, fun _ _ => rfl⟩
    exact .known (mem_elementsAt.mpr ⟨List.mem_of_getElem? he, helevel⟩) (hek ▸ hchain) hcheck
  · -- A new one comes last, among the elements of its own level.
    refine ⟨hpositions, _, hg', List.prefix_append _ _,
      ⟨_, List.getElem?_concat_length, rfl, rfl⟩, ?_, fun i hi => ?_⟩
    · rw [elementsAt_concat, if_pos rfl]
      refine .made hchain (fun e he heq => ?_) hcells fun hparent hsingle e he heq => ?_
      · obtain ⟨he, helevel⟩ := mem_elementsAt.mp he
        exact hnew e he ⟨helevel, heq⟩
      · obtain ⟨he, helevel⟩ := mem_elementsAt.mp he
        exact hfree hparent hsingle e he (Element.isBelow_iff.mpr ⟨helevel, heq⟩)
    · rw [elementsAt_concat, if_neg (Ne.symm hi)]

/-- What visiting a level of a row does: elements may come at this level only, and `v` is what has
been visited. -/
structure Settles (p : Plan) (r : Row) (index : Nat) (level : Level) (g : Graph)
    (es : List Element) (g' : Graph) (es' : List Element) (v : Visited) : Prop where
  positions_eq : g'.positions? = g.positions?
  represents : g'.Represents p es'
  grows : es <+: es'
  element : ∀ place k, v = some (place, k) →
    ∃ e, es'[place]? = some e ∧ e.level = index ∧ e.chain = k
  chain?_eq : p.chain? r index = v.map Prod.snd
  enters : p.Enters r index level (elementsAt es index) (elementsAt es' index)
  others : ∀ i, i ≠ index → elementsAt es' i = elementsAt es i

theorem settles_none {p : Plan} {r : Row} {index : Nat} {g : Graph} (hg : g.Represents p es)
    (hchain : p.chain? r index = none) : Settles p r index level g es g es none where
  positions_eq := rfl
  represents := hg
  grows := List.prefix_rfl
  element _ _ h := absurd h (by simp)
  chain?_eq := hchain
  enters := .absent hchain
  others _ _ := rfl

/-- The visit at one level: what `pushLevels` does before it goes on to the next. -/
def visitLevel (p : Plan) (ps : Positions) (r : Row) (rowNumbers : List (Option Int64))
    (index : Nat) (visited : List Visited) (level : Level) : Build Visited :=
  match above? level visited, (rowNumbers[level.rowId]?).join with
  | some (parent?, above), some id => do
    let place ← visit p ps r rowNumbers index level parent? (above ++ [id]) id
    return some (place, above ++ [id])
  | some (parent?, _), none =>
    if parent?.isNone then throw (.unconvertible (.nullRoot ((p.rowIds[level.rowId]?).getD "")))
    else return none
  | none, _ => return none

theorem pushLevels_cons (p : Plan) (ps : Positions) (r : Row) (rowNumbers : List (Option Int64))
    (index : Nat) (visited : List Visited) (level : Level) (rest : List Level) :
    pushLevels p ps r rowNumbers index visited (level :: rest) =
      visitLevel p ps r rowNumbers index visited level >>= fun v =>
        pushLevels p ps r rowNumbers (index + 1) (visited ++ [v]) rest := by
  rw [pushLevels, visitLevel]
  rcases above? level visited with _ | ⟨parent?, above⟩
  · rfl
  · cases (rowNumbers[level.rowId]?).join with
    | none => cases parent? <;> rfl
    | some id => simp only [bind_assoc, pure_bind]

/-- What a visit at a level comes to: nothing, if the row has no chain there, unless the level is a
root, whose rows need one; and otherwise a visit of the element with the row's chain. -/
theorem visitLevel_cases {p : Plan} {ps : Positions} {r : Row} {index : Nat}
    (hps : p.positions r.columns = .ok ps) (hlevel : p.levels[index]? = some level)
    (hvisits : Visits es visited (p.chains r index)) :
    (p.chain? r index = none ∧
      visitLevel p ps r (ps.rowNumbers r) index visited level = pure none) ∨
    (level.parent? = none ∧ p.chain? r index = none ∧
      ∃ e, visitLevel p ps r (ps.rowNumbers r) index visited level = throw e) ∨
    ∃ parent? k id, Above es level parent? k ∧ p.chain? r index = some (k ++ [id]) ∧
      visitLevel p ps r (ps.rowNumbers r) index visited level =
        visit p ps r (ps.rowNumbers r) index level parent? (k ++ [id]) id >>= fun place =>
          pure (some (place, k ++ [id])) := by
  rw [Plan.chain?_eq_nextChain? r hlevel, Plan.nextChain?, visitLevel,
    rowNumbers_getElem?_join hps]
  cases habove : above? level visited with
  | none => exact .inl ⟨by rw [hvisits.above_none habove, Option.bind_none], rfl⟩
  | some above =>
    obtain ⟨parent?, k⟩ := above
    obtain ⟨hparentChain, hk⟩ := hvisits.above habove
    rw [hparentChain, Option.bind_some]
    cases p.numberAt? r level.rowId with
    | some id => exact .inr (.inr ⟨parent?, k, id, hk, rfl, rfl⟩)
    | none =>
      -- Without a row number below, an element is not there; without one at the root, the row is
      -- refused.
      cases hk with
      | root hroot => exact .inr (.inl ⟨hroot, rfl, _, rfl⟩)
      | below => exact .inl ⟨rfl, rfl⟩

/-- **One level is settled.** -/
theorem visitLevel_yields {p : Plan} (hp : p.WellFormed) {ps : Positions} {r : Row}
    {index : Nat} {g g' : Graph} {v : Visited}
    (hps : p.positions r.columns = .ok ps) (hg : g.Represents p es)
    (hlevel : p.levels[index]? = some level) (hvisits : Visits es visited (p.chains r index))
    (h : Yields (visitLevel p ps r (ps.rowNumbers r) index visited level) g v g') :
    ∃ es', Settles p r index level g es g' es' v := by
  obtain ⟨hchain, heq⟩ | ⟨-, -, e, heq⟩ | ⟨parent?, k, id, hk, hchain, heq⟩ :=
    visitLevel_cases hps hlevel hvisits
  · rw [heq] at h
    obtain ⟨rfl, rfl⟩ := yields_pure_iff.mp h
    exact ⟨es, settles_none hg hchain⟩
  · rw [heq] at h
    exact absurd h not_yields_throw
  · rw [heq] at h
    obtain ⟨place, _, hvisit, h⟩ := yields_bind_iff.mp h
    obtain ⟨rfl, rfl⟩ := yields_pure_iff.mp h
    obtain ⟨hpositions, es', hg', hes', hplace, henters, hothers⟩ :=
      visit_enters hp hps hg hlevel hk hchain hvisit
    refine ⟨es', hpositions, hg', hes', fun place' k' hv => ?_, hchain, henters, hothers⟩
    obtain ⟨rfl, rfl⟩ := Prod.mk.inj (Option.some.inj hv)
    exact hplace

/-- With one more level settled, the row has visited one more level. -/
theorem Settles.visits {p : Plan} {r : Row} {index : Nat} {g g' : Graph} {v : Visited}
    (h : Settles p r index level g es g' es' v) (hlevel : p.levels[index]? = some level)
    (hvisits : Visits es visited (p.chains r index)) :
    Visits es' (visited ++ [v]) (p.chains r (index + 1)) := by
  have hindex : visited.length = index := by
    have hlength := congrArg List.length hvisits.chains_eq
    have hlt := (List.getElem?_eq_some_iff.mp hlevel).1
    rwa [List.length_map, Plan.chains_length p r hlt.le] at hlength
  rw [Plan.chains_succ_eq_chain? r hlevel, h.chain?_eq]
  exact hvisits.concat h.grows (hindex ▸ h.element)

/-- The first of the levels from a place on, and those after it. -/
theorem levels_drop_eq_cons {p : Plan} {index : Nat} {rest : List Level}
    (h : p.levels.drop index = level :: rest) :
    p.levels[index]? = some level ∧ p.levels.drop (index + 1) = rest := by
  constructor
  · rw [← List.head?_drop, h, List.head?_cons]
  · rw [← List.drop_drop, h, List.drop_succ_cons, List.drop_zero]

theorem pushLevels_yields {p : Plan} (hp : p.WellFormed) {ps : Positions} {r : Row} {index : Nat}
    {levels : List Level} {u : Unit} {g g' : Graph}
    (hps : p.positions r.columns = .ok ps) (hg : g.Represents p es)
    (hlevels : p.levels.drop index = levels) (hvisits : Visits es visited (p.chains r index))
    (h : Yields (pushLevels p ps r (ps.rowNumbers r) index visited levels) g u g') :
    g'.positions? = g.positions? ∧ ∃ es', g'.Represents p es' ∧
      (∀ i < index, elementsAt es' i = elementsAt es i) ∧
      ∀ i level, index ≤ i → p.levels[i]? = some level →
        p.Enters r i level (elementsAt es i) (elementsAt es' i) := by
  -- The levels from `index` on are still to come; those before it are settled.
  induction levels generalizing index g es visited with
  | nil =>
    obtain ⟨-, rfl⟩ := yields_pure_iff.mp h
    refine ⟨rfl, es, hg, fun _ _ => rfl, fun i level hi hlevel => ?_⟩
    have hlt := (List.getElem?_eq_some_iff.mp hlevel).1
    have hle := List.drop_eq_nil_iff.mp hlevels
    omega
  | cons level rest ih =>
    obtain ⟨hlevel, hrest⟩ := levels_drop_eq_cons hlevels
    rw [pushLevels_cons] at h
    obtain ⟨v, g₁, hvisit, h⟩ := yields_bind_iff.mp h
    obtain ⟨es₁, hv⟩ := visitLevel_yields hp hps hg hlevel hvisits hvisit
    obtain ⟨hpositions, es', hg', hbefore, hafter⟩ :=
      ih hv.represents hrest (hv.visits hlevel hvisits) h
    refine ⟨hpositions.trans hv.positions_eq, es', hg', fun i hi => ?_,
      fun i level' hi hlevel' => ?_⟩
    · rw [hbefore i (by omega), hv.others i (by omega)]
    · rcases Nat.eq_or_lt_of_le hi with rfl | hi
      · -- The levels after this one leave its elements alone.
        rw [hbefore index (Nat.lt_succ_self index)]
        rw [hlevel, Option.some.injEq] at hlevel'
        exact hlevel' ▸ hv.enters
      · rw [← hv.others i (by omega)]
        exact hafter i level' hi hlevel'

/-- Finding the positions of the columns leaves the elements alone. -/
theorem Represents.resolvePositions {p : Plan} {r : Row} {ps : Positions} {g g' : Graph}
    (hg : g.Represents p es)
    (hknown : ∀ ps, g.positions? = some ps → p.positions r.columns = .ok ps)
    (h : Yields (resolvePositions p r) g ps g') :
    g' = { g with positions? := some ps } ∧ p.positions r.columns = .ok ps ∧
      g'.Represents p es := by
  obtain ⟨rfl, hsome | ⟨-, hok⟩⟩ := resolvePositions_yields h
  · exact ⟨rfl, hknown ps hsome, hg.nodes, hg.index, hg.roots, hg.above⟩
  · exact ⟨rfl, hok, hg.nodes, hg.index, hg.roots, hg.above⟩

/-- **A row enters every level.** The positions of the columns are those of the first row. -/
theorem push_yields {p : Plan} (hp : p.WellFormed) {r : Row} {u : Unit} {g g' : Graph}
    (hg : g.Represents p es)
    (hknown : ∀ ps, g.positions? = some ps → p.positions r.columns = .ok ps)
    (h : Yields (push p r) g u g') :
    (∃ ps, g'.positions? = some ps ∧ p.positions r.columns = .ok ps) ∧
      ∃ es', g'.Represents p es' ∧ ∀ i level, p.levels[i]? = some level →
        p.Enters r i level (elementsAt es i) (elementsAt es' i) := by
  rw [push, yields_bind_iff] at h
  obtain ⟨ps, _, hresolve, h⟩ := h
  obtain ⟨rfl, hps, hg₁⟩ := hg.resolvePositions hknown hresolve
  obtain ⟨hpositions, es', hg', -, henters⟩ :=
    pushLevels_yields hp hps hg₁ List.drop_zero (visits_nil es) h
  exact ⟨⟨ps, hpositions, hps⟩, es', hg', fun i level hlevel =>
    henters i level (Nat.zero_le i) hlevel⟩

/-- The positions that a row leaves behind are those of its header. -/
theorem positions_of_push {p : Plan} (hp : p.WellFormed) {r : Row} {u : Unit} {g g' : Graph}
    (hg : g.Represents p es)
    (hknown : ∀ ps, g.positions? = some ps → p.positions r.columns = .ok ps)
    (h : Yields (push p r) g u g') :
    ∀ ps, g'.positions? = some ps → p.positions r.columns = .ok ps := by
  obtain ⟨⟨ps, hpositions, hps⟩, -⟩ := push_yields hp hg hknown h
  intro qs hqs
  rw [hpositions, Option.some.injEq] at hqs
  exact hqs ▸ hps

/-! ### Reading all rows -/

/-- **What every row keeps holds after all rows.** `I` speaks of the rows that have been read and
of the elements of one level; `read` are the rows that have been read before. -/
theorem forM_push_keeps {p : Plan} (hp : p.WellFormed) {I : List Row → Nat → List Element → Prop}
    (hstep : ∀ read r i level es es', p.levels[i]? = some level → I read i es →
      p.Enters r i level es es' → I (read ++ [r]) i es')
    {header : List String} {read rows : List Row} {u : Unit} {g g' : Graph}
    (hheader : ∀ r ∈ rows, r.columns = header)
    (hknown : ∀ ps, g.positions? = some ps → p.positions header = .ok ps)
    (hg : g.Represents p es) (hI : ∀ i < p.levels.length, I read i (elementsAt es i))
    (h : Yields (rows.forM (push p)) g u g') :
    (∀ ps, g'.positions? = some ps → p.positions header = .ok ps) ∧
      ∃ es', g'.Represents p es' ∧
        ∀ i < p.levels.length, I (read ++ rows) i (elementsAt es' i) := by
  induction rows generalizing read g es with
  | nil =>
    obtain ⟨-, rfl⟩ := yields_pure_iff.mp h
    rw [List.append_nil]
    exact ⟨hknown, es, hg, hI⟩
  | cons r rows ih =>
    obtain ⟨_, g₁, hpush, h⟩ := yields_bind_iff.mp h
    have hr := hheader r (List.mem_cons_self ..)
    obtain ⟨-, es₁, hg₁, henters⟩ := push_yields hp hg (hr ▸ hknown) hpush
    have hknown₁ := hr ▸ positions_of_push hp hg (hr ▸ hknown) hpush
    have hI₁ : ∀ i < p.levels.length, I (read ++ [r]) i (elementsAt es₁ i) := by
      intro i hi
      have hlevel := List.getElem?_eq_getElem hi
      exact hstep read r i _ _ _ hlevel (hI i hi) (henters i _ hlevel)
    -- The row `r` counts as read for the rows that follow.
    have hrows := ih (fun r' hr' => hheader r' (List.mem_cons_of_mem r hr')) hknown₁ hg₁ hI₁ h
    rwa [List.append_assoc] at hrows

end Graph

end NestedQuery
