import NestedQuery.Proofs.Query.Invariants
import NestedQuery.Proofs.Select.Sources
import NestedQuery.Proofs.Sql.Temporaries

/-!
# Temporary names of many queries

Queries with settings of their own may draw temporary names from one count. Whatever is compiled in
which order, the names in all statements are then those numbered from the first count to the last,
each once, so no two table sources share one (`temporaries_of_compileAll`).

A query that is refused draws no name, because all checks come before the first table is written: a
join without a condition would fail after that, but there is none in an accepted statement.
-/

namespace NestedQuery

open Fragment

variable {α β : Type}

/-! ### Failures -/

namespace Assembly

theorem drawn_of_run_eq_ok {x : Assembly α} {a : α} {n n' : Nat} (h : x.run n = .ok (a, n')) :
    x.drawn n = n' := by
  unfold Assembly.run at h
  unfold drawn
  split at h
  · next heq =>
    rw [heq]
    exact congrArg Prod.snd (Except.ok.inj h)
  · cases h

/-- A computation that fails is left where it is. -/
theorem drawn_bind_of_run_eq_error {x : Assembly α} {f : α → Assembly β} {n : Nat} {e : Error}
    (h : x.run n = .error e) : (x >>= f).drawn n = x.drawn n := by
  unfold Assembly.run at h
  unfold drawn
  rw [ExceptT.run_bind, StateT.run_bind]
  split at h
  · cases h
  · next heq =>
    rw [heq]
    rfl

/-- If the computation fails, it has drawn no name. -/
def FailsUndrawn (x : Assembly α) : Prop :=
  ∀ n e, x.run n = .error e → x.drawn n = n

theorem Succeeds.failsUndrawn {x : Assembly α} (hx : Succeeds x) : FailsUndrawn x := by
  intro n e he
  obtain ⟨p, hp⟩ := hx n
  exact absurd (hp.symm.trans he) nofun

/-- A check draws nothing, whether or not it allows to go on. -/
theorem failsUndrawn_lift_bind {x : Result α} {f : α → Assembly β}
    (hf : ∀ a, x = .ok a → FailsUndrawn (f a)) :
    FailsUndrawn ((liftM x : Assembly α) >>= f) := by
  cases x with
  | error e => exact fun _ _ _ => rfl
  | ok a => exact hf a rfl

/-- What always succeeds may follow. -/
theorem FailsUndrawn.bind_of_succeeds {x : Assembly α} {f : α → Assembly β} (hx : FailsUndrawn x)
    (hf : ∀ a, Succeeds (f a)) : FailsUndrawn (x >>= f) := by
  intro n e he
  rw [run_bind, Result.bind_eq_error_iff] at he
  obtain he | ⟨⟨a, n₁⟩, -, he⟩ := he
  · rw [drawn_bind_of_run_eq_error he, hx n e he]
  · obtain ⟨p, hp⟩ := hf a n₁
    exact absurd (hp.symm.trans he) nofun

end Assembly

/-- The checks come before the tables are written. -/
theorem Assembler.assemble_failsUndrawn {a : Assembler} (outputs : List (Output Cell))
    (tables : List MappedTable) (h : ∀ j ∈ a.statement.joins, j.on?.isSome) :
    Assembly.FailsUndrawn (a.assemble outputs tables) := by
  obtain ⟨write, hwrite, heq⟩ := exists_assemble_eq outputs tables h
  rw [heq]
  refine Assembly.failsUndrawn_lift_bind fun _ _ => ?_
  exact Assembly.failsUndrawn_lift_bind fun markers _ => (hwrite markers).failsUndrawn

/-- **A refused query draws no name.** -/
theorem QuerySpec.compile_failsUndrawn (settings : Settings) (q : QuerySpec) (mapping : Expr) :
    Assembly.FailsUndrawn (q.compile settings mapping) := by
  refine Assembly.failsUndrawn_lift_bind fun ⟨s, pool⟩ hs => ?_
  refine Assembly.failsUndrawn_lift_bind fun ⟨⟨r, bindings⟩, pool'⟩ _ => ?_
  refine Assembly.failsUndrawn_lift_bind fun outputs _ => ?_
  exact (Assembler.assemble_failsUndrawn _ _ (isSome_on?_of_statement hs)).bind_of_succeeds
    fun _ => Assembly.succeeds_pure _

/-! ### Statements -/

namespace Assembler

/-- The joined rows introduce the names that their tables draw. -/
theorem joinsDraw_draws (a : Assembler) : a.JoinsDraw (Draws a.engine.drawsPerTable) where
  nil n := draws_of_isStarless closed_isStarless.nil _ n
  append := Draws.append
  token {t} n ht := draws_of_isStarless (isStarless_singleton (by rintro ⟨⟩; simp at ht)) _ n
  table := a.engine.draws_tableSource
  on n _ _ := draws_of_isStarless (a.writer.isStarless_term _) _ n
  filter n _ := draws_of_isStarless (a.writer.isStarless_term _) _ n

/-- A statement introduces the names that are drawn for it. -/
theorem draws_of_assemble {a : Assembler} {outputs : List (Output Cell)}
    {tables : List MappedTable} {r : Assembled} {n n' : Nat}
    (h : (a.assemble outputs tables).run n = .ok (r, n')) :
    Draws a.engine.drawsPerTable n r.sql n' := by
  obtain ⟨before, source, after, hsource, hbefore, hafter, hsql⟩ := exists_sources_of_assemble h
  have hsource := a.joinsDraw_draws.sources hsource
  rw [hsql]
  exact ((draws_of_isStarless hbefore _ n).append hsource).append
    (draws_of_isStarless hafter _ n')

end Assembler

theorem QuerySpec.draws_of_compile {settings : Settings} {q : QuerySpec} {mapping : Expr}
    {query : Query} {n n' : Nat} (h : (q.compile settings mapping).run n = .ok (query, n')) :
    Draws settings.engine.drawsPerTable n query.sql n' := by
  obtain ⟨st, assembled, -, hassembled, rfl⟩ := compile_run_eq_ok_iff.mp h
  exact Assembler.draws_of_assemble hassembled

/-! ### Many queries -/

/-- A query with a mapping, and the settings to compile it with. -/
structure Compilation where
  /-- The settings. -/
  settings : Settings
  /-- The query. -/
  query : QuerySpec
  /-- The mapping. -/
  mapping : Expr

/-- What a compilation came to, and how many names had been drawn before and after it. -/
structure Compilation.Outcome where
  /-- The count before. -/
  before : Nat
  /-- The compiled query, or why there is none. -/
  result : Result Query
  /-- The count afterwards. -/
  after : Nat

namespace Compilation

/-- The temporary names in the statement, if there is one. -/
def Outcome.temporaries (o : Outcome) : List String :=
  match o.result with
  | .ok query => query.sql.temporaries
  | .error _ => []

/-- Compiles one query from the count that there is, and leaves the count that it comes to. -/
def compile (c : Compilation) : TempIds Outcome := fun n =>
  let action := c.query.compile c.settings c.mapping
  (⟨n, (action.run n).map Prod.fst, action.drawn n⟩, action.drawn n)

/-- Compiles queries one after the other. A query that fails does not keep the others from being
compiled. -/
def compileAll (cs : List Compilation) : TempIds (List Outcome) :=
  cs.mapM compile

/-- The outcome is in order: the count went up as the statement says, and the names in between are
those of the statement. -/
structure Accounts (c : Compilation) (o : Outcome) : Prop where
  /-- A query that is refused leaves the count as it was. -/
  error (e : Error) : o.result = .error e → o.after = o.before
  /-- A compiled query draws a name for each table that it reads from if rows are counted for
  their numbers, else none. -/
  ok (query : Query) : o.result = .ok query →
    o.after = o.before + c.settings.engine.drawsPerTable * (sourceNames query.sql).length
  /-- The statement introduces what was drawn for it, in order. -/
  temporaries : o.temporaries = temporaryNames o.before o.after

namespace Accounts

variable {c : Compilation} {o : Outcome}

theorem le (h : c.Accounts o) : o.before ≤ o.after := by
  cases hresult : o.result with
  | error e => exact (h.error e hresult).ge
  | ok query =>
    rw [h.ok query hresult]
    exact Nat.le_add_right ..

end Accounts

/-- **Compiling one query** is accounted for. -/
theorem accounts_compile (c : Compilation) (n : Nat) : c.Accounts (c.compile.run n).1 := by
  cases hrun : (c.query.compile c.settings c.mapping).run n with
  | error e =>
    have hdrawn := QuerySpec.compile_failsUndrawn c.settings c.query c.mapping n e hrun
    have hout : (c.compile.run n).1 = ⟨n, .error e, n⟩ := by
      show Outcome.mk n (((c.query.compile c.settings c.mapping).run n).map Prod.fst) _ = _
      rw [hrun, hdrawn, Except.map]
    rw [hout]
    exact ⟨fun _ _ => rfl, nofun, (temporaryNames_self n).symm⟩
  | ok p =>
    obtain ⟨query, n'⟩ := p
    have hout : (c.compile.run n).1 = ⟨n, .ok query, n'⟩ := by
      show Outcome.mk n (((c.query.compile c.settings c.mapping).run n).map Prod.fst) _ = _
      rw [hrun, Assembly.drawn_of_run_eq_ok hrun, Except.map]
    have hdraws := QuerySpec.draws_of_compile hrun
    rw [hout]
    exact ⟨nofun, fun _ h => Except.ok.inj h ▸ hdraws.count_eq, hdraws.temporaries_eq⟩

theorem compileAll_cons_run (c : Compilation) (cs : List Compilation) (n : Nat) :
    (compileAll (c :: cs)).run n =
      ((c.compile.run n).1 :: ((compileAll cs).run (c.compile.run n).2).1,
        ((compileAll cs).run (c.compile.run n).2).2) := by
  rw [compileAll, List.mapM_cons]
  rfl

/-- **Temporary names never collide, and refused queries draw none.** However many queries are
compiled, with any settings and in any order, each one is accounted for: a refused query leaves the
count as it was, and a compiled one adds the number of its table sources, or nothing on an engine
that has row numbers. The names in all statements together are those from the first count to the
last, each once. -/
theorem temporaries_of_compileAll (cs : List Compilation) (n : Nat) :
    let (os, n') := (compileAll cs).run n
    List.Forall₂ Accounts cs os ∧
      os.flatMap Outcome.temporaries = temporaryNames n n' ∧
      (os.flatMap Outcome.temporaries).Nodup := by
  suffices h : n ≤ ((compileAll cs).run n).2 ∧
      List.Forall₂ Accounts cs ((compileAll cs).run n).1 ∧
      ((compileAll cs).run n).1.flatMap Outcome.temporaries =
        temporaryNames n ((compileAll cs).run n).2 from
    ⟨h.2.1, h.2.2, h.2.2 ▸ nodup_temporaryNames _ _⟩
  induction cs generalizing n with
  | nil => exact ⟨le_refl n, .nil, (temporaryNames_self n).symm⟩
  | cons c cs ih =>
    obtain ⟨hle, haccounts, hnames⟩ := ih (c.compile.run n).2
    have hc := c.accounts_compile n
    -- The count after the first query is the one before the others.
    have hfirst : n ≤ (c.compile.run n).2 := hc.le
    rw [compileAll_cons_run]
    refine ⟨hfirst.trans hle, .cons hc haccounts, ?_⟩
    rw [List.flatMap_cons, hnames, hc.temporaries]
    exact temporaryNames_append hfirst hle

/-- Two statements over two tables each, with a refused query in between. -/
example :
    Prod.map (List.map Outcome.temporaries) id ((compileAll
      ([namesWithTitles, .var "c", namesWithTitles].map
        (⟨{ engine := .ansi (.emulated "id") }, people, ·⟩))).run 0) =
      ([["rs_tmp_1", "rs_tmp_2"], [], ["rs_tmp_3", "rs_tmp_4"]], 4) := by
  decide +kernel

end Compilation

end NestedQuery
