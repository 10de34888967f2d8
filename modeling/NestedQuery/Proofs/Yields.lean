import NestedQuery.Error

/-!
# Steps as relations

Building and compiling are made of steps that change a state and may fail. `Yields` reads a step
as a relation between states; a bind is then the composition of relations (`yields_bind_iff`), so
a step comes apart without unfolding its monad. `BreaksOff` reads the failures of a step in the same
way: a bind fails if its first step does, or if what follows does (`breaksOff_bind_iff`). `Fails`
leaves out the state at the failure.

A list of steps takes them in order and breaks off at the first failure (`breaksOff_mapM_iff`). To
take two steps for each of a list, with a state each, is to go through the list twice
(`yields_mapM_andThen_iff`).
-/

namespace NestedQuery

variable {σ τ α β γ : Type}

/-- From the state `s`, the step succeeds with `a` and leaves the state `s'`. -/
def Yields (x : ExceptT Error (StateM σ) α) (s : σ) (a : α) (s' : σ) : Prop :=
  x.run.run s = (.ok a, s')

theorem yields_pure_iff {a b : α} {s s' : σ} : Yields (pure a) s b s' ↔ a = b ∧ s = s' := by
  show ((Except.ok a, s) : Except Error α × σ) = (.ok b, s') ↔ _
  rw [Prod.mk.injEq, Except.ok.injEq]

theorem yields_bind_iff {x : ExceptT Error (StateM σ) α} {f : α → ExceptT Error (StateM σ) β}
    {s s' : σ} {b : β} :
    Yields (x >>= f) s b s' ↔ ∃ a s₁, Yields x s a s₁ ∧ Yields (f a) s₁ b s' := by
  unfold Yields
  rw [ExceptT.run_bind, StateT.run_bind]
  rcases h : x.run.run s with ⟨e | a, s₁⟩
  · constructor
    · intro hf
      exact absurd (congrArg Prod.fst hf) (by nofun)
    · rintro ⟨a, s₂, hx, -⟩
      exact absurd (congrArg Prod.fst hx) (by nofun)
  · constructor
    · exact fun hf => ⟨a, s₁, rfl, hf⟩
    · rintro ⟨_, _, hx, hf⟩
      obtain ⟨ha, rfl⟩ := Prod.mk.inj hx
      obtain rfl := Except.ok.inj ha
      exact hf

theorem yields_map_iff {x : ExceptT Error (StateM σ) α} {f : α → β} {s s' : σ} {b : β} :
    Yields (f <$> x) s b s' ↔ ∃ a, Yields x s a s' ∧ f a = b := by
  rw [map_eq_pure_bind, yields_bind_iff]
  constructor
  · rintro ⟨a, s₁, hx, h⟩
    obtain ⟨rfl, rfl⟩ := yields_pure_iff.mp h
    exact ⟨a, hx, rfl⟩
  · rintro ⟨a, hx, rfl⟩
    exact ⟨a, s', hx, yields_pure_iff.mpr ⟨rfl, rfl⟩⟩

theorem not_yields_throw {e : Error} {a : α} {s s' : σ} :
    ¬ Yields (throw e : ExceptT Error (StateM σ) α) s a s' := by
  intro h
  change ((Except.error e, s) : Except Error α × σ) = _ at h
  simp at h

theorem yields_get_iff {s a s' : σ} : Yields get s a s' ↔ s = a ∧ s = s' := by
  show ((Except.ok s, s) : Except Error σ × σ) = (.ok a, s') ↔ _
  rw [Prod.mk.injEq, Except.ok.injEq]

theorem yields_modify_iff {f : σ → σ} {u : Unit} {s s' : σ} :
    Yields (modify f) s u s' ↔ f s = s' := by
  show ((Except.ok (), f s) : Except Error Unit × σ) = (.ok u, s') ↔ _
  rw [Prod.mk.injEq, Except.ok.injEq]
  exact and_iff_right (Subsingleton.elim _ _)

/-- Failures that are worded anew are failures still. -/
theorem yields_tryCatch_throw_iff {x : ExceptT Error (StateM σ) α} {f : Error → Error} {s s' : σ}
    {a : α} : Yields (tryCatch x fun e => throw (f e)) s a s' ↔ Yields x s a s' := by
  unfold Yields
  rw [ExceptT.run_tryCatch, StateT.run_bind]
  rcases h : x.run.run s with ⟨e | a, s₁⟩
  · constructor <;> intro hf <;> exact absurd (congrArg Prod.fst hf) (by nofun)
  · exact Iff.rfl

/-- From one state, a step yields one thing. -/
theorem Yields.unique {x : ExceptT Error (StateM σ) α} {s s₁ s₂ : σ} {a b : α}
    (h : Yields x s a s₁) (h' : Yields x s b s₂) : a = b ∧ s₁ = s₂ := by
  obtain ⟨hab, hs⟩ := Prod.mk.inj (h.symm.trans h')
  exact ⟨Except.ok.inj hab, hs⟩

/-! ### Failures -/

/-- From the state `s`, the step fails with `e` and leaves the state `s'`. -/
def BreaksOff (x : ExceptT Error (StateM σ) α) (s : σ) (e : Error) (s' : σ) : Prop :=
  x.run.run s = (.error e, s')

theorem breaksOff_bind_iff {x : ExceptT Error (StateM σ) α} {f : α → ExceptT Error (StateM σ) β}
    {s s' : σ} {e : Error} :
    BreaksOff (x >>= f) s e s' ↔
      BreaksOff x s e s' ∨ ∃ a s₁, Yields x s a s₁ ∧ BreaksOff (f a) s₁ e s' := by
  unfold Yields BreaksOff
  rw [ExceptT.run_bind, StateT.run_bind]
  rcases h : x.run.run s with ⟨e' | a, s₁⟩
  · show ((Except.error e', s₁) : Except Error β × σ) = _ ↔
      ((Except.error e', s₁) : Except Error α × σ) = _ ∨ _
    rw [Prod.mk.injEq, Prod.mk.injEq, Except.error.injEq, Except.error.injEq]
    refine (or_iff_left ?_).symm
    rintro ⟨a, s₂, hx, -⟩
    exact absurd (congrArg Prod.fst hx) (by nofun)
  · constructor
    · exact fun hf => Or.inr ⟨a, s₁, rfl, hf⟩
    · rintro (hf | ⟨_, _, hx, hf⟩)
      · exact absurd (congrArg Prod.fst hf) (by nofun)
      · obtain ⟨ha, rfl⟩ := Prod.mk.inj hx
        obtain rfl := Except.ok.inj ha
        exact hf

theorem not_breaksOff_pure {a : α} {s s' : σ} {e : Error} :
    ¬ BreaksOff (pure a : ExceptT Error (StateM σ) α) s e s' :=
  fun h => absurd (congrArg Prod.fst h) (by nofun)

theorem breaksOff_map_iff {x : ExceptT Error (StateM σ) α} {f : α → β} {s s' : σ} {e : Error} :
    BreaksOff (f <$> x) s e s' ↔ BreaksOff x s e s' := by
  rw [map_eq_pure_bind, breaksOff_bind_iff]
  refine or_iff_left ?_
  rintro ⟨a, s₁, -, h⟩
  exact not_breaksOff_pure h

/-- From the state `s`, the step fails with `e`. -/
def Fails (x : ExceptT Error (StateM σ) α) (s : σ) (e : Error) : Prop :=
  (x.run.run s).1 = .error e

theorem fails_iff {x : ExceptT Error (StateM σ) α} {s : σ} {e : Error} :
    Fails x s e ↔ ∃ s', BreaksOff x s e s' :=
  ⟨fun h => ⟨_, Prod.ext h rfl⟩, fun ⟨_, h⟩ => congrArg Prod.fst h⟩

theorem yields_or_fails (x : ExceptT Error (StateM σ) α) (s : σ) :
    (∃ a s', Yields x s a s') ∨ ∃ e, Fails x s e := by
  unfold Yields Fails
  rcases x.run.run s with ⟨e | a, s'⟩
  · exact Or.inr ⟨e, rfl⟩
  · exact Or.inl ⟨a, s', rfl⟩

theorem exists_yields_of_isOk {x : ExceptT Error (StateM σ) α} {s : σ}
    (h : (x.run.run s).1.isOk = true) : ∃ a s', Yields x s a s' := by
  obtain hx | ⟨e, he⟩ := yields_or_fails x s
  · exact hx
  · rw [show (x.run.run s).1 = _ from he] at h
    cases h

theorem Yields.not_fails {x : ExceptT Error (StateM σ) α} {s s' : σ} {a : α}
    (h : Yields x s a s') (e : Error) : ¬ Fails x s e := by
  rw [Fails, show x.run.run s = (.ok a, s') from h]
  exact nofun

theorem fails_bind_iff {x : ExceptT Error (StateM σ) α} {f : α → ExceptT Error (StateM σ) β}
    {s : σ} {e : Error} :
    Fails (x >>= f) s e ↔ Fails x s e ∨ ∃ a s', Yields x s a s' ∧ Fails (f a) s' e := by
  simp only [fails_iff, breaksOff_bind_iff]
  constructor
  · rintro ⟨s', hx | ⟨a, s₁, hx, hf⟩⟩
    · exact Or.inl ⟨s', hx⟩
    · exact Or.inr ⟨a, s₁, hx, s', hf⟩
  · rintro (⟨s', hx⟩ | ⟨a, s₁, hx, s', hf⟩)
    · exact ⟨s', Or.inl hx⟩
    · exact ⟨s', Or.inr ⟨a, s₁, hx, hf⟩⟩

theorem not_fails_pure {a : α} {s : σ} {e : Error} :
    ¬ Fails (pure a : ExceptT Error (StateM σ) α) s e :=
  (yields_pure_iff.mpr ⟨rfl, rfl⟩).not_fails e

theorem fails_throw_iff {e e' : Error} {s : σ} :
    Fails (throw e : ExceptT Error (StateM σ) α) s e' ↔ e = e' := by
  show (Except.error e : Except Error α) = .error e' ↔ _
  rw [Except.error.injEq]

theorem not_fails_get {s : σ} {e : Error} : ¬ Fails get s e :=
  (yields_get_iff.mpr ⟨rfl, rfl⟩).not_fails e

theorem not_fails_modify {f : σ → σ} {s : σ} {e : Error} : ¬ Fails (modify f) s e :=
  ((yields_modify_iff (u := ())).mpr rfl).not_fails e

/-- Steps that never fail may stand before others. -/
theorem fails_bind_of_not_fails {x : ExceptT Error (StateM σ) α}
    {f : α → ExceptT Error (StateM σ) β} {s : σ} {e : Error} (hx : ¬ Fails x s e)
    (h : Fails (x >>= f) s e) : ∃ a s', Yields x s a s' ∧ Fails (f a) s' e :=
  (fails_bind_iff.mp h).resolve_left hx

/-! ### Lists of steps -/

theorem yields_mapM_cons_iff {f : α → ExceptT Error (StateM σ) β} {a : α} {l : List α} {s s' : σ}
    {bs : List β} :
    Yields ((a :: l).mapM f) s bs s' ↔
      ∃ b bs' s₁, bs = b :: bs' ∧ Yields (f a) s b s₁ ∧ Yields (l.mapM f) s₁ bs' s' := by
  rw [List.mapM_cons, yields_bind_iff]
  constructor
  · rintro ⟨b, s₁, ha, h⟩
    obtain ⟨bs', s₂, hl, h⟩ := yields_bind_iff.mp h
    obtain ⟨rfl, rfl⟩ := yields_pure_iff.mp h
    exact ⟨b, bs', s₁, rfl, ha, hl⟩
  · rintro ⟨b, bs', s₁, rfl, ha, hl⟩
    exact ⟨b, s₁, ha, yields_bind_iff.mpr ⟨bs', s', hl, yields_pure_iff.mpr ⟨rfl, rfl⟩⟩⟩

theorem breaksOff_mapM_cons_iff {f : α → ExceptT Error (StateM σ) β} {a : α} {l : List α}
    {s s' : σ} {e : Error} :
    BreaksOff ((a :: l).mapM f) s e s' ↔
      BreaksOff (f a) s e s' ∨ ∃ b s₁, Yields (f a) s b s₁ ∧ BreaksOff (l.mapM f) s₁ e s' := by
  rw [List.mapM_cons, breaksOff_bind_iff]
  refine or_congr_right (exists_congr fun b => exists_congr fun s₁ => and_congr_right' ?_)
  rw [← map_eq_pure_bind, breaksOff_map_iff]

/-- A list of steps breaks off at the first that fails, and takes no step after it. -/
theorem breaksOff_mapM_iff {f : α → ExceptT Error (StateM σ) β} {l : List α} {s s' : σ}
    {e : Error} :
    BreaksOff (l.mapM f) s e s' ↔ ∃ before a after bs s₁, l = before ++ a :: after ∧
      Yields (before.mapM f) s bs s₁ ∧ BreaksOff (f a) s₁ e s' := by
  induction l generalizing s with
  | nil =>
    refine iff_of_false not_breaksOff_pure ?_
    rintro ⟨before, a, after, _, _, h, -⟩
    exact absurd h (by simp)
  | cons b l ih =>
    -- Either the first element fails, or the list behind it does.
    rw [breaksOff_mapM_cons_iff]
    constructor
    · rintro (hb | ⟨c, s₁, hb, h⟩)
      · exact ⟨[], b, l, [], s, rfl, yields_pure_iff.mpr ⟨rfl, rfl⟩, hb⟩
      · obtain ⟨before, a, after, bs, s₂, rfl, hbefore, ha⟩ := ih.mp h
        exact ⟨b :: before, a, after, c :: bs, s₂, rfl,
          yields_mapM_cons_iff.mpr ⟨c, bs, s₁, rfl, hb, hbefore⟩, ha⟩
    · rintro ⟨before, a, after, bs, s₁, heq, hbefore, ha⟩
      cases before with
      | nil =>
        obtain ⟨rfl, rfl⟩ := List.cons.inj heq
        obtain ⟨-, rfl⟩ := yields_pure_iff.mp hbefore
        exact Or.inl ha
      | cons b' before =>
        obtain ⟨rfl, rfl⟩ := List.cons.inj heq
        obtain ⟨c, bs', s₂, -, hb, hbefore⟩ := yields_mapM_cons_iff.mp hbefore
        exact Or.inr ⟨c, s₂, hb, ih.mpr ⟨before, a, after, bs', s₁, rfl, hbefore, ha⟩⟩

theorem forM_eq_map_mapM (f : α → ExceptT Error (StateM σ) Unit) (l : List α) :
    l.forM f = (fun _ => ()) <$> l.mapM f := by
  induction l with
  | nil => rfl
  | cons a l ih =>
    show (f a >>= fun _ => l.forM f) = _
    rw [ih, List.mapM_cons, map_bind]
    simp only [map_eq_pure_bind, bind_assoc, pure_bind]

/-- Of a list of steps the first that fails decides. -/
theorem fails_forM_iff {f : α → ExceptT Error (StateM σ) Unit} {l : List α} {s : σ} {e : Error} :
    Fails (l.forM f) s e ↔ ∃ before a after s', l = before ++ a :: after ∧
      Yields (before.forM f) s () s' ∧ Fails (f a) s' e := by
  simp only [fails_iff, forM_eq_map_mapM, breaksOff_map_iff, breaksOff_mapM_iff, yields_map_iff]
  constructor
  · rintro ⟨s', before, a, after, us, s₁, hl, hbefore, ha⟩
    exact ⟨before, a, after, s₁, hl, ⟨us, hbefore, trivial⟩, s', ha⟩
  · rintro ⟨before, a, after, s₁, hl, ⟨us, hbefore, -⟩, s', ha⟩
    exact ⟨s', before, a, after, us, s₁, hl, hbefore, ha⟩

/-- Steps that use no state leave it as it is. -/
theorem run_mapM_lift (f : α → Result β) (l : List α) (s : σ) :
    (l.mapM fun a => (liftM (f a) : ExceptT Error (StateM σ) β)).run.run s = (l.mapM f, s) := by
  induction l with
  | nil => rfl
  | cons a l ih =>
    rw [List.mapM_cons, List.mapM_cons]
    cases f a with
    | error e => rfl
    | ok b =>
      show ((l.mapM fun a => (liftM (f a) : ExceptT Error (StateM σ) β)) >>= fun bs =>
        pure (b :: bs)).run.run s = (l.mapM f >>= fun bs => pure (b :: bs), s)
      rw [ExceptT.run_bind, StateT.run_bind, ih]
      cases l.mapM f <;> rfl

/-! ### Steps with states of their own -/

/-- A step on the first of two states. -/
def onFirst (x : ExceptT Error (StateM σ) α) : ExceptT Error (StateM (σ × τ)) α :=
  ExceptT.mk fun p => Prod.map id (·, p.2) (x.run.run p.1)

/-- A step on the second of two states. -/
def onSecond (x : ExceptT Error (StateM τ) α) : ExceptT Error (StateM (σ × τ)) α :=
  ExceptT.mk fun p => Prod.map id (p.1, ·) (x.run.run p.2)

/-- One step and then another on what it yields, each with a state of its own. -/
def andThen (f : α → ExceptT Error (StateM σ) β) (g : β → ExceptT Error (StateM τ) γ) (a : α) :
    ExceptT Error (StateM (σ × τ)) γ :=
  onFirst (f a) >>= fun b => onSecond (g b)

section

variable {s s' : σ} {u u' : τ}

theorem run_onFirst_eq_iff {x : ExceptT Error (StateM σ) α} {r : Result α} :
    (onFirst x).run.run (s, u) = (r, (s', u')) ↔ x.run.run s = (r, s') ∧ u = u' := by
  show Prod.map id (·, u) (x.run.run s) = ((r, (s', u')) : Result α × (σ × τ)) ↔
    ((x.run.run s : Result α × σ) = (r, s')) ∧ u = u'
  rw [Prod.ext_iff, Prod.ext_iff, Prod.ext_iff, and_assoc]
  rfl

theorem run_onSecond_eq_iff {x : ExceptT Error (StateM τ) α} {r : Result α} :
    (onSecond x).run.run (s, u) = (r, (s', u')) ↔ x.run.run u = (r, u') ∧ s = s' := by
  show Prod.map id (s, ·) (x.run.run u) = ((r, (s', u')) : Result α × (σ × τ)) ↔
    ((x.run.run u : Result α × τ) = (r, u')) ∧ s = s'
  rw [Prod.ext_iff, Prod.ext_iff, Prod.ext_iff, and_assoc, @and_comm (_ = u')]
  rfl

variable {f : α → ExceptT Error (StateM σ) β} {g : β → ExceptT Error (StateM τ) γ} {a : α}

/-- If the first step succeeds, the second decides. -/
theorem exists_onFirst_iff {r : Result γ} :
    (∃ b p, Yields (onFirst (f a)) (s, u) b p ∧ (onSecond (g b)).run.run p = (r, (s', u'))) ↔
      ∃ b, Yields (f a) s b s' ∧ (g b).run.run u = (r, u') := by
  constructor
  · rintro ⟨b, ⟨s₁, u₁⟩, hfirst, hsecond⟩
    obtain ⟨hf, rfl⟩ := run_onFirst_eq_iff.mp hfirst
    obtain ⟨hg, rfl⟩ := run_onSecond_eq_iff.mp hsecond
    exact ⟨b, hf, hg⟩
  · rintro ⟨b, hf, hg⟩
    exact ⟨b, (s', u), run_onFirst_eq_iff.mpr ⟨hf, rfl⟩, run_onSecond_eq_iff.mpr ⟨hg, rfl⟩⟩

theorem yields_andThen_iff {c : γ} :
    Yields (andThen f g a) (s, u) c (s', u') ↔
      ∃ b, Yields (f a) s b s' ∧ Yields (g b) u c u' :=
  yields_bind_iff.trans exists_onFirst_iff

theorem breaksOff_andThen_iff {e : Error} :
    BreaksOff (andThen f g a) (s, u) e (s', u') ↔
      BreaksOff (f a) s e s' ∧ u = u' ∨ ∃ b, Yields (f a) s b s' ∧ BreaksOff (g b) u e u' :=
  breaksOff_bind_iff.trans (or_congr run_onFirst_eq_iff exists_onFirst_iff)

/-- To take both steps for each of a list is to take the first for each and then the second for
each, if all succeed. -/
theorem yields_mapM_andThen_iff {l : List α} {cs : List γ} :
    Yields (l.mapM (andThen f g)) (s, u) cs (s', u') ↔
      ∃ bs, Yields (l.mapM f) s bs s' ∧ Yields (bs.mapM g) u cs u' := by
  induction l generalizing s u cs with
  | nil =>
    show Yields (pure []) (s, u) cs (s', u') ↔ ∃ bs, Yields (pure []) s bs s' ∧ _
    simp only [yields_pure_iff, Prod.mk.injEq]
    constructor
    · rintro ⟨rfl, rfl, rfl⟩
      exact ⟨[], ⟨rfl, rfl⟩, yields_pure_iff.mpr ⟨rfl, rfl⟩⟩
    · rintro ⟨bs, ⟨rfl, rfl⟩, h⟩
      obtain ⟨rfl, rfl⟩ := yields_pure_iff.mp h
      exact ⟨rfl, rfl, rfl⟩
  | cons a l ih =>
    rw [yields_mapM_cons_iff]
    constructor
    · rintro ⟨c, cs', ⟨s₁, u₁⟩, rfl, ha, hl⟩
      obtain ⟨b, hf, hg⟩ := yields_andThen_iff.mp ha
      obtain ⟨bs, hfs, hgs⟩ := ih.mp hl
      exact ⟨b :: bs, yields_mapM_cons_iff.mpr ⟨b, bs, s₁, rfl, hf, hfs⟩,
        yields_mapM_cons_iff.mpr ⟨c, cs', u₁, rfl, hg, hgs⟩⟩
    · rintro ⟨_, h, hgs⟩
      obtain ⟨b, bs, s₁, rfl, hf, hfs⟩ := yields_mapM_cons_iff.mp h
      obtain ⟨c, cs', u₁, rfl, hg, hgs⟩ := yields_mapM_cons_iff.mp hgs
      exact ⟨c, cs', (s₁, u₁), rfl, yields_andThen_iff.mpr ⟨b, hf, hg⟩, ih.mpr ⟨bs, hfs, hgs⟩⟩

/-- If the first step succeeds for each of a list, then both fail where the second does. -/
theorem breaksOff_mapM_andThen_iff {l : List α} {bs : List β} {e : Error}
    (h : Yields (l.mapM f) s bs s') :
    (∃ s₁, BreaksOff (l.mapM (andThen f g)) (s, u) e (s₁, u')) ↔ BreaksOff (bs.mapM g) u e u' := by
  induction l generalizing s u bs with
  | nil =>
    obtain ⟨rfl, -⟩ := yields_pure_iff.mp h
    refine iff_of_false ?_ not_breaksOff_pure
    rintro ⟨s₁, hnil⟩
    exact not_breaksOff_pure hnil
  | cons a l ih =>
    obtain ⟨b, bs, s₂, rfl, hf, hfs⟩ := yields_mapM_cons_iff.mp h
    -- The first steps do not fail, so what fails at an element is its second step.
    rw [breaksOff_mapM_cons_iff]
    constructor
    · rintro ⟨s₁, h⟩
      rcases breaksOff_mapM_cons_iff.mp h with h | ⟨c, ⟨s₃, u₁⟩, ha, hl⟩
      · rcases breaksOff_andThen_iff.mp h with ⟨hbreak, -⟩ | ⟨b', hf', hg⟩
        · exact absurd (hbreak.symm.trans hf) nofun
        · obtain ⟨rfl, -⟩ := hf.unique hf'
          exact .inl hg
      · obtain ⟨b', hf', hg⟩ := yields_andThen_iff.mp ha
        obtain ⟨rfl, rfl⟩ := hf.unique hf'
        exact .inr ⟨c, u₁, hg, (ih hfs).mp ⟨s₁, hl⟩⟩
    · rintro (hg | ⟨c, u₁, hg, hgs⟩)
      · exact ⟨s₂, breaksOff_mapM_cons_iff.mpr
          (.inl (breaksOff_andThen_iff.mpr (.inr ⟨b, hf, hg⟩)))⟩
      · obtain ⟨s₁, hl⟩ := (ih hfs).mpr hgs
        exact ⟨s₁, breaksOff_mapM_cons_iff.mpr
          (.inr ⟨c, (s₂, u₁), yields_andThen_iff.mpr ⟨b, hf, hg⟩, hl⟩)⟩

end

end NestedQuery
