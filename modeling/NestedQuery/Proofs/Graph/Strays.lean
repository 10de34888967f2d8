import NestedQuery.Proofs.Graph.Append

/-!
# Elements without a place

A row that wants a second element where there is place for one is refused, but only after it has
made the element and entered it into the index. The element hangs nowhere, so the documents are not
read from it (`Graph.Returned`, `Graph.finish_set`); yet it is known from then on.

So the refusal does not last. When the row comes again, it finds its element, passes the level at
which it was refused, and goes on below an element that nobody sees (`Graph.push_again`). A row that
was refused because of a witness is refused for ever.

Which elements are returned can be told from the order in which they were made: those that found a
place (`Graph.IsPlaced`), if all above them did.
-/

namespace NestedQuery

namespace Graph

variable {p : Plan} {ps : Positions} {r : Row} {g g' : Graph} {es es' : List Element}
  {e : Element} {place : Nat}

/-! ### What the documents are read from -/

/-- The places that the documents are read from: those of the roots, and those in the slots of
elements that are read. -/
inductive Returned (g : Graph) : Nat → Prop
  | root {place : Nat} : place ∈ g.roots → Returned g place
  | slot {parent place : Nat} {n : Node} {s : ChildSlot} : Returned g parent →
      g.nodes[parent]? = some n → s ∈ n.slots → place ∈ s.places → Returned g place

theorem slotDocument_congr {f f' : Nat → Document} {s : ChildSlot}
    (h : ∀ place ∈ s.places, f place = f' place) : slotDocument f s = slotDocument f' s := by
  cases s with
  | many places => exact congrArg Document.array (List.map_congr_left h)
  | one place? =>
    cases place? with
    | none => rfl
    | some place => exact h place (List.mem_singleton.mpr rfl)

/-- The document of an element that is returned depends only on elements that are returned. -/
theorem documentAt_congr {nodes : List Node}
    (h : ∀ place, g.Returned place → nodes[place]? = g.nodes[place]?) (depth : Nat)
    (hplace : g.Returned place) :
    documentAt p nodes depth place = documentAt p g.nodes depth place := by
  induction depth generalizing place with
  | zero => rfl
  | succ depth ih =>
    rw [documentAt, documentAt, h place hplace]
    cases hn : g.nodes[place]? with
    | none => rfl
    | some n =>
      simp only
      congr 2
      refine List.filterMap_congr fun x hx => Option.map_congr fun level _ => ?_
      rw [slotDocument_congr fun i hi => ih (.slot hplace hn (List.of_mem_zip hx).1 hi)]

/-- **The documents do not change with an element that is not returned.** -/
theorem finish_set (p : Plan) (hplace : ¬ g.Returned place) (n : Node) :
    finish p { g with nodes := g.nodes.set place n } = g.finish p := by
  refine List.map_congr_left fun root hroot => documentAt_congr (fun i hi => ?_) _ (.root hroot)
  have hne : place ≠ i := fun heq => hplace (heq ▸ hi)
  exact List.getElem?_set_ne hne

/-- A slot for one element has the first of those that hang there. -/
theorem places_slotOf_of_isSingle {child : Nat} (h : p.isSingle child) (es : List Element)
    (k : Chain) :
    (p.slotOf es k child).places = (placesOf (Element.isBelow child k) es).head?.toList := by
  rw [Plan.slotOf, if_pos h, ChildSlot.places]

/-- A slot for one element that has an early one has no later one. -/
theorem lt_of_mem_slotOf {child : Nat} {k : Chain} {a : Element} (hsingle : p.isSingle child)
    (ha : a ∈ es) (hbelow : a.isBelow child k) (hes : es <+: es')
    (hplace : place ∈ (p.slotOf es' k child).places) : place < es.length := by
  obtain ⟨i, hi⟩ := List.mem_iff_getElem?.mp ha
  have hmem : i ∈ placesOf (Element.isBelow child k) es := mem_placesOf.mpr ⟨a, hi, hbelow⟩
  obtain ⟨first, rest, hfirst⟩ := List.exists_cons_of_ne_nil (List.ne_nil_of_mem hmem)
  obtain ⟨more, hmore⟩ := placesOf_prefix (Element.isBelow child k) hes
  rw [places_slotOf_of_isSingle hsingle, ← hmore, hfirst] at hplace
  obtain rfl : place = first := List.mem_singleton.mp hplace
  obtain ⟨b, hb, -⟩ := mem_placesOf.mp (hfirst ▸ List.mem_cons_self ..)
  exact (List.getElem?_eq_some_iff.mp hb).1

/-! ### Elements that found no place -/

/-- There was room for the element at a place when it was made: where there is place for one
element, none hung there before. -/
def IsPlaced (p : Plan) (es : List Element) (place : Nat) : Prop :=
  ∀ (e : Element) (level : Level), es[place]? = some e → p.levels[e.level]? = some level →
    level.parent?.isSome → level.single → ∀ a ∈ es.take place, ¬ a.isBelow e.level e.chain.dropLast

theorem isPlaced_iff_of_grown (hes : es <+: es') (hplace : place < es.length) :
    IsPlaced p es' place ↔ IsPlaced p es place := by
  obtain ⟨more, rfl⟩ := hes
  rw [IsPlaced, IsPlaced, List.getElem?_append_left hplace,
    List.take_append_of_le_length (Nat.le_of_lt hplace)]

/-- An element that found no place is not returned. -/
theorem not_returned_of_not_isPlaced (hp : p.WellFormed) (hg : g.Represents p es)
    (hplace : ¬ IsPlaced p es place) : ¬ g.Returned place := by
  rw [IsPlaced] at hplace
  push Not at hplace
  obtain ⟨e, level, he, hlevel, hparent, hsingle, a, ha, hbelow⟩ := hplace
  intro h
  cases h with
  | root hroot =>
    rw [hg.roots, mem_placesOf] at hroot
    obtain ⟨e', he', hzero⟩ := hroot
    obtain rfl := Option.some.inj (he.symm.trans he')
    rw [(hp.parent_eq_none_iff _ _ hlevel).mpr (Element.isRoot_iff.mp hzero)] at hparent
    cases hparent
  | slot _ hn hs hmem =>
    obtain ⟨b, -, rfl⟩ := hg.getElem?_nodes_eq_some_iff.mp hn
    obtain ⟨child, -, rfl⟩ := List.mem_map.mp hs
    obtain ⟨e', he', hbelow'⟩ := Plan.exists_of_mem_slotOf hmem
    obtain rfl := Option.some.inj (he.symm.trans he')
    -- The only slot that could have it is that of its own level and chain, and has an earlier one.
    obtain ⟨rfl, hchain⟩ := Element.isBelow_iff.mp hbelow'
    rw [← hchain] at hmem
    have hlt := lt_of_mem_slotOf ((Plan.isSingle_eq hlevel).trans hsingle) ha hbelow
      (List.take_prefix place es) hmem
    exact Nat.lt_irrefl _ (Nat.lt_of_lt_of_le hlt (List.length_take_le place es))

/-- The first element with a property stands first among their places. -/
theorem head?_placesOf {q : Element → Bool} (he : es[place]? = some e) (hq : q e)
    (hbefore : ∀ a ∈ es.take place, ¬ q a) : (placesOf q es).head? = some place := by
  have hlength : (es.take place).length = place :=
    List.length_take_of_le (Nat.le_of_lt (List.getElem?_eq_some_iff.mp he).1)
  have hes : es.take place ++ [e] <+: es := by
    have h := List.take_prefix (place + 1) es
    rwa [List.take_add_one, he, Option.toList_some] at h
  obtain ⟨more, hmore⟩ := placesOf_prefix q hes
  rw [← hmore, placesOf_concat, placesOf_eq_nil_iff.mpr hbefore, if_pos hq, hlength]
  rfl

/-- An element that found a place stands in the slot there. -/
theorem mem_slotOf (hplace : IsPlaced p es place) {level : Level} {k : Chain}
    (hlevel : p.levels[e.level]? = some level) (hparent : level.parent?.isSome)
    (he : es[place]? = some e) (hk : e.chain.dropLast = k) :
    place ∈ (p.slotOf es k e.level).places := by
  have hbelow : e.isBelow e.level k := Element.isBelow_iff.mpr ⟨rfl, hk⟩
  have hisSingle := Plan.isSingle_eq hlevel
  by_cases hsingle : level.single
  · have hbefore := hplace e level he hlevel hparent hsingle
    rw [hk] at hbefore
    rw [places_slotOf_of_isSingle (hisSingle.trans hsingle), head?_placesOf he hbelow hbefore]
    exact List.mem_singleton.mpr rfl
  · rw [Plan.slotOf, hisSingle, if_neg hsingle]
    exact mem_placesOf.mpr ⟨e, he, hbelow⟩

/-- An element is returned unless it found no place, or one above it found none. -/
theorem exists_not_isPlaced (hp : p.WellFormed) (hg : g.Represents p es)
    (he : es[place]? = some e) (hplace : ¬ g.Returned place) :
    ∃ place₀ e₀, es[place₀]? = some e₀ ∧ ¬ IsPlaced p es place₀ ∧ e₀.chain <+: e.chain := by
  -- The induction goes up: the element above an element is of an earlier level.
  induction hi : e.level using Nat.strong_induction_on generalizing place e with
  | h i ih =>
    subst hi
    by_cases hplaced : IsPlaced p es place
    · obtain ⟨level, parent?, k, id, hlevel, habove, hchain⟩ :=
        hg.above e (List.mem_of_getElem? he)
      cases habove with
      | root hnone =>
        refine absurd (.root ?_) hplace
        rw [hg.roots, mem_placesOf]
        exact ⟨e, he, Element.isRoot_iff.mpr ((hp.parent_eq_none_iff _ _ hlevel).mp hnone)⟩
      | @below parent a hparent ha =>
        have hlt := hp.parent_lt _ _ hlevel _ hparent
        have hchild : e.level ∈ p.children a.level := by
          rw [hp.children_eq _ (hg.level_lt (List.mem_of_getElem? ha))]
          exact Plan.mem_childLevels.mpr ⟨level, hlevel, hparent⟩
        have hmem := mem_slotOf hplaced hlevel (hparent ▸ rfl) he (hchain ▸ List.dropLast_concat)
        -- If the element above were returned, this one would be found in its slot.
        have habove : ¬ g.Returned parent := fun h => hplace (.slot h
          (hg.getElem?_nodes_eq_some_iff.mpr ⟨a, ha, rfl⟩)
          (List.mem_map.mpr ⟨e.level, hchild, rfl⟩) hmem)
        obtain ⟨place₀, e₀, he₀, hplace₀, hprefix⟩ := ih a.level hlt ha habove rfl
        exact ⟨place₀, e₀, he₀, hplace₀, hprefix.trans (hchain ▸ List.prefix_append _ _)⟩
    · exact ⟨place, e, he, hplaced, List.prefix_rfl⟩

/-! ### What a row adds -/

section

variable {numbers : List (Option Int64)} {level : Level} {visited : List Visited}

/-- The element that a row makes finds a place unless the row is refused for that. -/
theorem Stage.isPlaced {result : Result Visited} (h : Stage numbers level visited es result es')
    (hlevel : p.levels[visited.length]? = some level)
    (hresult : ∀ table label id, result ≠ .error (.crowded table label (.secondRow id)))
    (hplace : es.length ≤ place) : IsPlaced p es' place := by
  have hnone : es[place]? = none := List.getElem?_eq_none hplace
  intro a level' ha hlevel' hparent hsingle
  cases h with
  | passed | ambiguous | unread =>
    rw [hnone] at ha
    cases ha
  | crowded => exact absurd rfl (hresult _ _ _)
  | @made parent? k id e hwants he hwitnesses hfree =>
    obtain hold | ⟨rfl, rfl⟩ := getElem?_concat_eq_some_iff.mp ha
    · rw [hnone] at hold
      cases hold
    · rw [he.level_eq, hlevel, Option.some.injEq] at hlevel'
      subst hlevel'
      rw [List.take_left, he.level_eq, he.chain_eq, List.dropLast_concat]
      exact hfree hparent hsingle

theorem Trace.isPlaced {levels : List Level} {result : Result Unit}
    (h : Trace numbers visited es levels result es')
    (hlevels : p.levels.drop visited.length = levels)
    (hresult : ∀ table label id, result ≠ .error (.crowded table label (.secondRow id)))
    (hplace : es.length ≤ place) : IsPlaced p es' place := by
  induction h with
  | done =>
    intro a _ ha
    rw [List.getElem?_eq_none hplace] at ha
    cases ha
  | @next visited es es₁ es' _ _ _ _ hstage htrace ih =>
    obtain ⟨hlevel, hrest⟩ := levels_drop_eq_cons hlevels
    rw [← length_visited_concat] at hrest
    obtain hlt | hle := Nat.lt_or_ge place es₁.length
    · exact (isPlaced_iff_of_grown htrace.grows hlt).mpr (hstage.isPlaced hlevel nofun hplace)
    · exact ih hrest hresult hle
  | failed hstage =>
    refine hstage.isPlaced (levels_drop_eq_cons hlevels).1 (fun table label id heq => ?_) hplace
    exact hresult table label id (congrArg Except.error (Except.error.inj heq))

end

/-- Some row was refused because there was no place for its element. -/
def CrowdsOut (p : Plan) (rows : List Row) : Prop :=
  ∃ before r rest table label id, rows = before ++ r :: rest ∧
    Fails (push p r) (after p before) (.crowded table label (.secondRow id))

theorem forall_isPlaced_of_not_crowdsOut (hp : p.WellFormed) {rows : List Row}
    (h : ¬ CrowdsOut p rows) :
    ∃ es, (after p rows).Represents p es ∧ ∀ place, IsPlaced p es place := by
  induction rows using List.reverseRecOn with
  | nil => exact ⟨[], represents_nil p, fun _ _ _ he => absurd he (by simp)⟩
  | append_singleton rows r ih =>
    have hrows : ¬ CrowdsOut p rows := by
      rintro ⟨before, r', rest, table, label, id, rfl, hfails⟩
      exact h ⟨before, r', rest ++ [r], table, label, id, List.append_assoc .., hfails⟩
    obtain ⟨es, hg, hes⟩ := ih hrows
    rw [after_concat]
    obtain ⟨c, -, hrun⟩ | ⟨ps, -, -, es', hg', htrace⟩ := push_run hp hg r
    · rw [hrun]
      exact ⟨es, hg, hes⟩
    · refine ⟨es', hg', fun place => ?_⟩
      obtain hlt | hle := Nat.lt_or_ge place es.length
      · exact (isPlaced_iff_of_grown htrace.grows hlt).mpr (hes place)
      · refine htrace.isPlaced List.drop_zero (fun table label id heq => ?_) hle
        exact h ⟨rows, r, [], table, label, id, rfl, heq⟩

/-- After a row that is read, what is not returned hangs below what was not returned before. -/
theorem exists_not_returned_of_yields (hp : p.WellFormed) {rows : List Row} {u : Unit}
    (h : Yields (push p r) (after p rows) u g') {i : Nat} {k : Chain}
    (hindex : g'.index.lookup (i, k) = some place) (hplace : ¬ g'.Returned place) :
    ∃ i₀ k₀ place₀, (after p rows).index.lookup (i₀, k₀) = some place₀ ∧
      ¬ (after p rows).Returned place₀ ∧ k₀ <+: k := by
  obtain ⟨es, hg⟩ := represents_after hp rows
  rw [Yields] at h
  obtain ⟨c, -, hrun⟩ | ⟨ps, -, -, es', hg', htrace⟩ := push_run hp hg r
  · cases h.symm.trans hrun
  · rw [h] at hg' htrace
    obtain ⟨e, he, rfl, rfl⟩ := (hg'.index i k place).mp hindex
    obtain ⟨place₀, e₀, he₀, hplace₀, hprefix⟩ := exists_not_isPlaced hp hg' he hplace
    -- What the row itself has made found its place, or the row would have been refused.
    have hlt : place₀ < es.length := by
      by_contra hle
      exact hplace₀ (htrace.isPlaced List.drop_zero (fun _ _ _ => by simp) (Nat.le_of_not_lt hle))
    rw [isPlaced_iff_of_grown htrace.grows hlt] at hplace₀
    refine ⟨e₀.level, e₀.chain, place₀, (hg.index _ _ _).mpr ⟨e₀, ?_, rfl, rfl⟩,
      not_returned_of_not_isPlaced hp hg hplace₀, hprefix⟩
    obtain ⟨more, rfl⟩ := htrace.grows
    rwa [List.getElem?_append_left hlt] at he₀

/-! ### Rows that come again -/

/-- A row passes a level at an element that is not returned, and goes on below it. -/
structure PassesUnseen (p : Plan) (g : Graph) (r : Row) (visited : List Visited) (chain : Chain)
    (place : Nat) : Prop where
  /-- The index leads from the level and the chain to the element. -/
  index : g.index.lookup (visited.length, chain) = some place
  /-- The documents are not read from it. -/
  not_returned : ¬ g.Returned place
  /-- Reading the row is visiting the levels after it, where the row has visited the element. -/
  run : ∃ ps, g.positions? = some ps ∧ (push p r).run.run g =
    (pushLevels p ps r (ps.rowNumbers r) (visited.length + 1) (visited ++ [some (place, chain)])
      (p.levels.drop (visited.length + 1))).run.run g

/-- A row that was refused for a second element passes the level when it comes again. -/
theorem passesUnseen_of_crowded (hp : p.WellFormed) (hg : g.Represents p es')
    (hps : g.positions? = some ps) {es₁ : List Element} {level : Level} {rest : List Level}
    {visited : List Visited} {parent? : Option Nat} {k : Chain} {id : Int64} {a : Element}
    (hreaches : Reaches (ps.rowNumbers r) es' [] p.levels visited (level :: rest))
    (hwants : Wants (ps.rowNumbers r) level visited parent? k id)
    (he : IsNew es₁ visited.length (k ++ [id]) e)
    (hwitnesses : e.witnesses = witnessesOf (ps.rowNumbers r) level)
    (hparent : level.parent?.isSome) (hsingle : level.single) (ha : a ∈ es₁)
    (hbelow : a.isBelow visited.length k) (hes : es₁ ++ [e] <+: es') :
    PassesUnseen p g r visited (k ++ [id]) es₁.length where
  index := by
    rw [hg.index]
    exact ⟨e, getElem?_of_grown hes List.getElem?_concat_length, he.level_eq, he.chain_eq⟩
  not_returned := by
    obtain ⟨hlevel, -⟩ := levels_drop_eq_cons (hreaches.drop List.drop_zero)
    have hlt : es₁.length < (es₁ ++ [e]).length := by
      rw [List.length_append]
      exact Nat.lt_succ_self _
    refine not_returned_of_not_isPlaced hp hg fun hplaced => ?_
    -- There was no room: an earlier element hangs below the same chain.
    rw [isPlaced_iff_of_grown hes hlt] at hplaced
    rw [← he.level_eq] at hlevel
    have hfree := hplaced e level List.getElem?_concat_length hlevel hparent hsingle
    rw [List.take_left, he.level_eq, he.chain_eq, List.dropLast_concat] at hfree
    exact hfree a ha hbelow
  run := by
    refine ⟨ps, hps, (push_run_of_positions hps).trans ?_⟩
    obtain ⟨-, hrest⟩ := levels_drop_eq_cons (hreaches.drop List.drop_zero)
    have hpasses := (passes_of_isNew hwants he hwitnesses).mono hes
    rw [hrest, ← length_visited_concat]
    exact (hreaches.concat hpasses).run hg

/-- A row that was refused because of a witness is refused for ever; one that was refused for a
second element passes the level from then on. -/
theorem again_of_fails (hp : p.WellFormed) {rows : List Row} {table label : String}
    {detail : Crowding} (h : Fails (push p r) (after p rows) (.crowded table label detail)) :
    (detail = .ambiguousValue ∧
        ∀ more, Fails (push p r) (after p (rows ++ r :: more)) (.crowded table label detail)) ∨
      ∃ id visited k place, detail = .secondRow id ∧
        ∀ more, PassesUnseen p (after p (rows ++ r :: more)) r visited (k ++ [id]) place := by
  obtain ⟨es, hg⟩ := represents_after hp rows
  rw [Fails] at h
  obtain ⟨c, -, hrun⟩ | ⟨ps, -, hps, es', hg', htrace⟩ := push_run hp hg r
  · rw [hrun] at h
    cases h
  rw [h] at htrace
  rw [← after_concat] at hps hg'
  obtain ⟨visited, level, rest, es₁, hreaches, hstage⟩ := htrace.exists_reaches
  -- Later rows add elements at most, so what is seen of the elements stays.
  have hlater : ∀ more, ∃ es'', (after p (rows ++ r :: more)).Represents p es'' ∧ es' <+: es'' ∧
      (after p (rows ++ r :: more)).positions? = some ps := by
    intro more
    obtain ⟨es'', hg'', hes, hpositions⟩ := represents_after_append hp hg' more
    rw [List.append_assoc, List.singleton_append] at hg'' hpositions
    exact ⟨es'', hg'', hes, hpositions ps hps⟩
  cases hstage with
  | @crowded parent? k id e a hwants he hwitnesses hparent hsingle ha hbelow =>
    -- The element was entered into the index before it was refused its place.
    refine .inr ⟨id, visited, k, es₁.length, rfl, fun more => ?_⟩
    obtain ⟨es'', hg'', hes, hps''⟩ := hlater more
    exact passesUnseen_of_crowded hp hg'' hps'' (hreaches.mono hes) hwants he hwitnesses hparent
      hsingle ha hbelow hes
  | ambiguous hwants he hlevel hchain hdisagree =>
    -- A known element keeps its witnesses, so the row disagrees with it again.
    refine .inl ⟨rfl, fun more => ?_⟩
    obtain ⟨es'', hg'', hes, hps''⟩ := hlater more
    rw [Fails, push_run_of_positions hps'']
    refine (congrArg Prod.fst ((hreaches.mono hes).run hg'')).trans ?_
    rw [pushLevels_cons, run_bind_of_error (visitLevel_run_of_disagreement hg'' hwants
      (getElem?_of_grown hes he) hlevel hchain hdisagree)]

/-- All elements are returned so long as no row has been refused for a second one. -/
theorem forall_returned_iff (hp : p.WellFormed) (rows : List Row) :
    (∀ place < (after p rows).nodes.length, (after p rows).Returned place) ↔
      ¬ CrowdsOut p rows := by
  constructor
  · rintro hall ⟨before, r, rest, table, label, id, rfl, hfails⟩
    -- The refused row left an element in the index that no document reaches.
    obtain ⟨hdetail, -⟩ | ⟨_, visited, k, place, -, hunseen⟩ := again_of_fails hp hfails
    · cases hdetail
    · obtain ⟨es, hg⟩ := represents_after hp (before ++ r :: rest)
      have hunseen := hunseen rest
      obtain ⟨e, he, -⟩ := (hg.index _ _ _).mp hunseen.index
      refine hunseen.not_returned (hall place ?_)
      rw [hg.nodes, List.length_map]
      exact (List.getElem?_eq_some_iff.mp he).1
  · intro hrows place hplace
    obtain ⟨es, hg, hes⟩ := forall_isPlaced_of_not_crowdsOut hp hrows
    rw [hg.nodes, List.length_map] at hplace
    by_contra hnot
    obtain ⟨place₀, -, -, hplace₀, -⟩ :=
      exists_not_isPlaced hp hg (List.getElem?_eq_getElem hplace) hnot
    exact hplace₀ (hes place₀)

/-- **What becomes of a refusal**, after any rows. A row that was refused because of a witness is
refused for ever, in the same way. A row that was refused because there was no place for its
element passes that level from then on: it finds the element, which is not returned, and goes on
below it. All elements are returned so long as no row has been refused in this second way, and no
longer; and a row that is read brings elements that are not returned only below such ones. -/
theorem push_again (hp : p.WellFormed) (rows : List Row) :
    (∀ r table label detail,
      Fails (push p r) (after p rows) (.crowded table label detail) →
        (detail = .ambiguousValue ∧ ∀ more,
          Fails (push p r) (after p (rows ++ r :: more)) (.crowded table label detail)) ∨
        ∃ id visited k place, detail = .secondRow id ∧
          ∀ more, PassesUnseen p (after p (rows ++ r :: more)) r visited (k ++ [id]) place) ∧
      ((∀ place < (after p rows).nodes.length, (after p rows).Returned place) ↔
        ¬ CrowdsOut p rows) ∧
      ∀ r u g', Yields (push p r) (after p rows) u g' →
        ∀ i k place, g'.index.lookup (i, k) = some place → ¬ g'.Returned place →
          ∃ i₀ k₀ place₀, (after p rows).index.lookup (i₀, k₀) = some place₀ ∧
            ¬ (after p rows).Returned place₀ ∧ k₀ <+: k :=
  ⟨fun _ _ _ _ h => again_of_fails hp h, forall_returned_iff hp rows,
    fun _ _ _ h _ _ _ hindex hplace => exists_not_returned_of_yields hp h hindex hplace⟩

/-- Ann's second mentor is refused once. When the row comes again, it is read and brings a topic,
which the documents do not show. -/
theorem push_again_mentors :
    Fails (push mentorPlan secondMentorRow) (after mentorPlan mentorRows)
        (.crowded "mentors" "mentor" (.secondRow 6)) ∧
      (∃ visited k place, ∀ more, PassesUnseen mentorPlan
        (after mentorPlan (mentorRows ++ secondMentorRow :: more)) secondMentorRow visited
        (k ++ [6]) place) ∧
      (∃ g, Yields (push mentorPlan secondMentorRow)
          (after mentorPlan (mentorRows ++ [secondMentorRow])) () g ∧
        g.nodes.length = (after mentorPlan (mentorRows ++ [secondMentorRow])).nodes.length + 1 ∧
        g.finish mentorPlan = [.object [("name", .text "Ann"),
          ("mentor", .object [("topics", .array [.text "Art"])])]]) ∧
      ¬ ∀ place < (after mentorPlan (mentorRows ++ [secondMentorRow])).nodes.length,
        (after mentorPlan (mentorRows ++ [secondMentorRow])).Returned place := by
  have hfails : Fails (push mentorPlan secondMentorRow) (after mentorPlan mentorRows)
      (.crowded "mentors" "mentor" (.secondRow 6)) := rfl
  have hagain := (push_again built_mentorPlan.wellFormed mentorRows).1 _ _ _ _ hfails
  have hreturned := (push_again built_mentorPlan.wellFormed (mentorRows ++ [secondMentorRow])).2.1
  refine ⟨hfails, ?_, ⟨_, Prod.ext rfl rfl, rfl, rfl⟩, fun hall => hreturned.mp hall ?_⟩
  · obtain ⟨hdetail, -⟩ | ⟨id, visited, k, place, hid, hunseen⟩ := hagain
    · cases hdetail
    · obtain rfl := Crowding.secondRow.inj hid
      exact ⟨visited, k, place, hunseen⟩
  · exact ⟨mentorRows, secondMentorRow, [], _, _, _, rfl, hfails⟩

end Graph

end NestedQuery
