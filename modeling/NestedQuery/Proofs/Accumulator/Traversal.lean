import NestedQuery.Proofs.Accumulator.Views
import NestedQuery.Proofs.Yields

/-!
# Traversals

A tree is its shape, which is all but what its leaves hold, and the list of its leaves
(`eq_of_parts_eq`). A traversal goes through this list from left to right and keeps the shape,
whatever the effects of its function are (`parts_traverse`). So all that is known of lists of steps
holds of traversals, and what a view of a tree says of its shape stays as it is.
-/

namespace NestedQuery.Accumulator

variable {α β γ σ τ : Type}

/-! ### Shapes -/

/-- The operators, aggregates and cases of a tree, whatever its leaves hold. -/
def shape (acc : Accumulator α) : Accumulator Unit :=
  acc.map fun _ => ()

theorem shape_map (f : α → β) (acc : Accumulator α) : (acc.map f).shape = acc.shape :=
  map_map f _ acc

theorem length_leaves_eq_of_shape_eq {acc : Accumulator α} {acc' : Accumulator β}
    (h : acc.shape = acc'.shape) : acc.leaves.length = acc'.leaves.length := by
  have h := congrArg (List.length ∘ leaves) h
  rwa [Function.comp, Function.comp, shape, shape, leaves_map, leaves_map, List.length_map,
    List.length_map] at h

/-- Which leaves lie beneath an aggregate is a matter of the shape. -/
theorem map_snd_visitFrom_eq_of_shape_eq {acc : Accumulator α} {acc' : Accumulator β}
    (h : acc.shape = acc'.shape) (b : Bool) :
    (acc.visitFrom b).map Prod.snd = (acc'.visitFrom b).map Prod.snd := by
  have h := congrArg (fun t => (t.visitFrom b).map Prod.snd) h
  simp only [shape, visitFrom_map, List.map_map] at h
  exact h

/-- So are the functions of the aggregates. -/
theorem map_fst_aggregates_eq_of_shape_eq {acc : Accumulator α} {acc' : Accumulator β}
    (h : acc.shape = acc'.shape) : acc.aggregates.map Prod.fst = acc'.aggregates.map Prod.fst := by
  have h := congrArg (fun t => t.aggregates.map Prod.fst) h
  simp only [shape, aggregates_map, List.map_map] at h
  exact h

/-- The shape of a tree and its leaves. -/
def parts (acc : Accumulator α) : Accumulator Unit × List α :=
  (acc.shape, acc.leaves)

/-- The shapes of the branches of a case and their leaves. -/
def partsOfBranches (branches : List (Accumulator α × Accumulator α)) :
    List (Accumulator Unit × Accumulator Unit) × List α :=
  (mapBranches (fun _ => ()) branches, (visitBranches false branches).map Prod.fst)

theorem parts_binary (op : BinaryOp) (left right : Accumulator α) :
    (binary op left right).parts =
      (binary op left.parts.1 right.parts.1, left.parts.2 ++ right.parts.2) :=
  Prod.ext rfl (leaves_binary op left right)

theorem parts_wrap (op : Wrapper) (operand : Accumulator α) :
    (wrap op operand).parts = (wrap op operand.parts.1, operand.parts.2) :=
  Prod.ext rfl (leaves_wrap op operand)

theorem parts_cases (branches : List (Accumulator α × Accumulator α))
    (otherwise : Accumulator α) :
    (cases branches otherwise).parts =
      (cases (partsOfBranches branches).1 otherwise.parts.1,
        (partsOfBranches branches).2 ++ otherwise.parts.2) :=
  Prod.ext rfl (leaves_cases branches otherwise)

theorem parts_casesOf (subject : Accumulator α) (branches : List (Accumulator α × Accumulator α))
    (otherwise : Accumulator α) :
    (casesOf subject branches otherwise).parts =
      (casesOf subject.parts.1 (partsOfBranches branches).1 otherwise.parts.1,
        subject.parts.2 ++ ((partsOfBranches branches).2 ++ otherwise.parts.2)) :=
  Prod.ext rfl (leaves_casesOf subject branches otherwise)

theorem partsOfBranches_cons (test value : Accumulator α)
    (rest : List (Accumulator α × Accumulator α)) :
    partsOfBranches ((test, value) :: rest) =
      ((test.parts.1, value.parts.1) :: (partsOfBranches rest).1,
        test.parts.2 ++ (value.parts.2 ++ (partsOfBranches rest).2)) := by
  refine Prod.ext rfl ?_
  show (visitBranches false ((test, value) :: rest)).map Prod.fst = _
  rw [visitBranches, List.map_append, List.map_append]
  rfl

theorem length_leavesOfBranches_eq {branches : List (Accumulator α × Accumulator α)}
    {branches' : List (Accumulator β × Accumulator β)}
    (h : (partsOfBranches branches).1 = (partsOfBranches branches').1) :
    (partsOfBranches branches).2.length = (partsOfBranches branches').2.length := by
  have h := congrArg (List.length ∘ visitBranches false) h
  simp only [Function.comp, partsOfBranches, visitBranches_map, List.length_map] at h
  simpa only [partsOfBranches, List.length_map] using h

mutual

/-- **A tree is its shape and its leaves.** -/
theorem eq_of_parts_eq : (acc acc' : Accumulator α) → acc.parts = acc'.parts → acc = acc'
  | leaf a, acc', h => by
    cases acc' with
    | leaf a' => exact congrArg leaf (List.cons.inj (Prod.mk.inj h).2).1
    | _ => cases (Prod.mk.inj h).1
  | binary op left right, acc', h => by
    cases acc' with
    | binary op' left' right' =>
      rw [parts_binary, parts_binary] at h
      obtain ⟨hshape, hleaves⟩ := Prod.mk.inj h
      obtain ⟨rfl, hl, hr⟩ := binary.inj hshape
      -- Equal shapes have equally many leaves, so the joined lists come apart at the same place.
      obtain ⟨hll, hlr⟩ := List.append_inj hleaves (length_leaves_eq_of_shape_eq hl)
      rw [eq_of_parts_eq left left' (Prod.ext hl hll),
        eq_of_parts_eq right right' (Prod.ext hr hlr)]
    | _ => cases (Prod.mk.inj h).1
  | wrap op operand, acc', h => by
    cases acc' with
    | wrap op' operand' =>
      rw [parts_wrap, parts_wrap] at h
      obtain ⟨hshape, hleaves⟩ := Prod.mk.inj h
      obtain ⟨rfl, ho⟩ := wrap.inj hshape
      rw [eq_of_parts_eq operand operand' (Prod.ext ho hleaves)]
    | _ => cases (Prod.mk.inj h).1
  | cases branches otherwise, acc', h => by
    cases acc' with
    | cases branches' otherwise' =>
      rw [parts_cases, parts_cases] at h
      obtain ⟨hshape, hleaves⟩ := Prod.mk.inj h
      obtain ⟨hb, ho⟩ := cases.inj hshape
      obtain ⟨hlb, hlo⟩ := List.append_inj hleaves (length_leavesOfBranches_eq hb)
      rw [eq_of_partsOfBranches_eq branches branches' (Prod.ext hb hlb),
        eq_of_parts_eq otherwise otherwise' (Prod.ext ho hlo)]
    | _ => cases (Prod.mk.inj h).1
  | casesOf subject branches otherwise, acc', h => by
    cases acc' with
    | casesOf subject' branches' otherwise' =>
      rw [parts_casesOf, parts_casesOf] at h
      obtain ⟨hshape, hleaves⟩ := Prod.mk.inj h
      obtain ⟨hs, hb, ho⟩ := casesOf.inj hshape
      obtain ⟨hls, hleaves⟩ := List.append_inj hleaves (length_leaves_eq_of_shape_eq hs)
      obtain ⟨hlb, hlo⟩ := List.append_inj hleaves (length_leavesOfBranches_eq hb)
      rw [eq_of_parts_eq subject subject' (Prod.ext hs hls),
        eq_of_partsOfBranches_eq branches branches' (Prod.ext hb hlb),
        eq_of_parts_eq otherwise otherwise' (Prod.ext ho hlo)]
    | _ => cases (Prod.mk.inj h).1

theorem eq_of_partsOfBranches_eq : (branches branches' : List (Accumulator α × Accumulator α)) →
    partsOfBranches branches = partsOfBranches branches' → branches = branches'
  | [], branches', h => by
    cases branches' with
    | nil => rfl
    | cons _ _ => cases (Prod.mk.inj h).1
  | (test, value) :: rest, branches', h => by
    cases branches' with
    | nil => cases (Prod.mk.inj h).1
    | cons branch rest' =>
      obtain ⟨test', value'⟩ := branch
      rw [partsOfBranches_cons, partsOfBranches_cons] at h
      obtain ⟨hshapes, hleaves⟩ := Prod.mk.inj h
      obtain ⟨hbranch, hr⟩ := List.cons.inj hshapes
      obtain ⟨ht, hv⟩ := Prod.mk.inj hbranch
      -- Trees of one shape have equally many leaves, so the list of leaves splits in one way.
      obtain ⟨hlt, hleaves⟩ := List.append_inj hleaves (length_leaves_eq_of_shape_eq ht)
      obtain ⟨hlv, hlr⟩ := List.append_inj hleaves (length_leaves_eq_of_shape_eq hv)
      rw [eq_of_parts_eq test test' (Prod.ext ht hlt),
        eq_of_parts_eq value value' (Prod.ext hv hlv),
        eq_of_partsOfBranches_eq rest rest' (Prod.ext hr hlr)]

end

/-! ### Order -/

/-- The leftmost leaf is the first that a view lists. -/
theorem head?_leaves : (acc : Accumulator α) → acc.leaves.head? = some acc.first
  | leaf a => rfl
  | binary op left right => by
    rw [leaves_binary, List.head?_append, head?_leaves left]
    rfl
  | wrap op operand => by
    rw [leaves_wrap, head?_leaves operand]
    rfl
  | cases [] otherwise => by
    rw [leaves_cases, visitBranches, List.map_nil, List.nil_append, head?_leaves otherwise]
    rfl
  | cases ((test, value) :: rest) otherwise => by
    rw [leaves_cases, visitBranches, List.map_append, map_fst_visitFrom, List.append_assoc,
      List.head?_append, head?_leaves test]
    rfl
  | casesOf subject branches otherwise => by
    rw [leaves_casesOf, List.head?_append, head?_leaves subject]
    rfl

section

variable {m : Type → Type} [Monad m] [LawfulMonad m]

/-- What follows a step may use what a map says of its result. -/
theorem bind_eq_of_map_eq {δ δ' ε ω : Type} {x : m δ} {y : m δ'} {v : δ → ε} {w : δ' → ε}
    (h : v <$> x = w <$> y) (k : ε → m ω) :
    (x >>= fun a => k (v a)) = y >>= fun b => k (w b) := by
  rw [← bind_map_left v x k, h, bind_map_left]

/-- Two traversals after each other go through the leaves of the first and then through those of
the second. -/
theorem bind_eq_mapM_append {δ δ' ε ε' ω : Type} {f : α → m β} {x : m δ} {y : m δ'}
    {v : δ → ε × List β} {w : δ' → ε' × List β} {p : ε} {q : ε'} {as bs : List α}
    (hx : v <$> x = (p, ·) <$> as.mapM f) (hy : w <$> y = (q, ·) <$> bs.mapM f)
    (k : ε → ε' → ω) :
    (x >>= fun a => y >>= fun b => pure (k (v a).1 (w b).1, (v a).2 ++ (w b).2)) =
      (k p q, ·) <$> (as ++ bs).mapM f :=
  calc (x >>= fun a => y >>= fun b => pure (k (v a).1 (w b).1, (v a).2 ++ (w b).2))
    _ = (as.mapM f >>= fun cs => y >>= fun b => pure (k p (w b).1, cs ++ (w b).2)) :=
        bind_eq_of_map_eq hx fun a => y >>= fun b => pure (k a.1 (w b).1, a.2 ++ (w b).2)
    _ = (as.mapM f >>= fun cs => bs.mapM f >>= fun ds => pure (k p q, cs ++ ds)) :=
        bind_congr fun cs => bind_eq_of_map_eq hy fun b => pure (k p b.1, cs ++ b.2)
    _ = (k p q, ·) <$> (as ++ bs).mapM f := by
        rw [List.mapM_append, map_bind]
        simp only [map_bind, map_pure]

mutual

/-- **A traversal goes through the leaves in their order** and keeps the shape. -/
theorem parts_traverse (f : α → m β) : (acc : Accumulator α) →
    parts <$> acc.traverse f = (acc.parts.1, ·) <$> acc.parts.2.mapM f
  | leaf a => by
    rw [traverse, map_bind]
    simp [parts, shape, map, leaves, visit, visitFrom]
  | binary op left right => by
    rw [parts_binary, ← bind_eq_mapM_append (parts_traverse f left) (parts_traverse f right)
      (binary op)]
    simp only [traverse, map_bind, map_pure, parts_binary]
  | wrap op operand => by
    rw [parts_wrap, traverse]
    simp only [map_bind, map_pure, parts_wrap]
    rw [bind_eq_of_map_eq (parts_traverse f operand) fun t => pure (wrap op t.1, t.2),
      map_eq_pure_bind]
  | cases branches otherwise => by
    rw [parts_cases, ← bind_eq_mapM_append (partsOfBranches_traverse f branches)
      (parts_traverse f otherwise) cases]
    simp only [traverse, map_bind, map_pure, parts_cases]
  | casesOf subject branches otherwise => by
    -- The branches and the alternative follow the subject as one step.
    have hrest := bind_eq_mapM_append (partsOfBranches_traverse f branches)
      (parts_traverse f otherwise) Prod.mk
    rw [parts_casesOf, ← bind_eq_mapM_append (parts_traverse f subject) ((id_map _).trans hrest)
      fun s rest => casesOf s rest.1 rest.2]
    simp only [traverse, map_bind, map_pure, parts_casesOf, bind_assoc, pure_bind, id_eq]

theorem partsOfBranches_traverse (f : α → m β) :
    (branches : List (Accumulator α × Accumulator α)) →
      partsOfBranches <$> traverseBranches f branches =
        ((partsOfBranches branches).1, ·) <$> (partsOfBranches branches).2.mapM f
  | [] => by
    rw [traverseBranches]
    simp [partsOfBranches, mapBranches, visitBranches]
  | (test, value) :: rest => by
    have hrest := bind_eq_mapM_append (parts_traverse f value) (partsOfBranches_traverse f rest)
      Prod.mk
    rw [partsOfBranches_cons, ← bind_eq_mapM_append (parts_traverse f test)
      ((id_map _).trans hrest) fun t rest => (t, rest.1) :: rest.2]
    simp only [traverseBranches, map_bind, map_pure, partsOfBranches_cons, bind_assoc, pure_bind,
      id_eq]

end

end

/-! ### Functions that may fail -/

section

variable {f : α → Result β} {acc : Accumulator α} {t : Accumulator β} {e : Error}

theorem traverse_eq_ok_iff :
    acc.traverse f = .ok t ↔ t.shape = acc.shape ∧ acc.leaves.mapM f = .ok t.leaves := by
  have h := parts_traverse f acc
  constructor
  · intro ht
    rw [ht] at h
    obtain ⟨bs, hbs, hparts⟩ := Result.map_eq_ok_iff.mp h.symm
    obtain ⟨hshape, rfl⟩ := Prod.mk.inj hparts
    exact ⟨hshape.symm, hbs⟩
  · rintro ⟨hshape, hleaves⟩
    rw [show acc.parts.2.mapM f = _ from hleaves] at h
    obtain ⟨t', ht', hparts⟩ := Result.map_eq_ok_iff.mp h
    rw [ht', eq_of_parts_eq t' t (hparts.trans (Prod.ext hshape.symm rfl))]

theorem traverse_eq_error_iff : acc.traverse f = .error e ↔ acc.leaves.mapM f = .error e :=
  calc acc.traverse f = .error e
    _ ↔ parts <$> acc.traverse f = .error e := Result.map_eq_error_iff.symm
    _ ↔ (acc.parts.1, ·) <$> acc.parts.2.mapM f = .error e := by rw [parts_traverse]
    _ ↔ acc.leaves.mapM f = .error e := Result.map_eq_error_iff

/-- To traverse what a traversal yields is to traverse with both functions. -/
theorem traverse_bind {g : β → Result γ} (h : acc.traverse f = .ok t) :
    (acc.traverse fun a => f a >>= g) = t.traverse g := by
  obtain ⟨hshape, hleaves⟩ := traverse_eq_ok_iff.mp h
  have hboth := Result.mapM_bind (g := g) hleaves
  cases hv : t.traverse g with
  | error e => exact traverse_eq_error_iff.mpr (hboth.trans (traverse_eq_error_iff.mp hv))
  | ok v =>
    obtain ⟨hshape', hleaves'⟩ := traverse_eq_ok_iff.mp hv
    exact traverse_eq_ok_iff.mpr ⟨hshape'.trans hshape, hboth.trans hleaves'⟩

/-- A traversal of a tree with other leaves does the same if its step does. -/
theorem traverse_map {α' β' : Type} {g : α → α'} {g' : β → β'} {f' : α' → Result β'} (b : Bool)
    (acc : Accumulator α) (h : ∀ x ∈ acc.visitFrom b, f' (g x.1) = g' <$> f x.1) :
    (acc.map g).traverse f' = map g' <$> acc.traverse f := by
  -- A traversal fails or succeeds with its leaves.
  have hleaves : (acc.map g).leaves.mapM f' = List.map g' <$> acc.leaves.mapM f := by
    rw [leaves_map]
    refine Result.mapM_map fun a ha => ?_
    rw [← map_fst_visitFrom b acc] at ha
    obtain ⟨x, hx, rfl⟩ := List.mem_map.mp ha
    exact h x hx
  cases ht : acc.traverse f with
  | error e =>
    rw [traverse_eq_error_iff.mp ht] at hleaves
    exact traverse_eq_error_iff.mpr hleaves
  | ok t =>
    obtain ⟨hshape, hok⟩ := traverse_eq_ok_iff.mp ht
    rw [hok] at hleaves
    refine traverse_eq_ok_iff.mpr ⟨?_, ?_⟩
    · rw [shape_map, shape_map, hshape]
    · rw [leaves_map g' t]
      exact hleaves

/-- A traversal that succeeds is a map. -/
theorem eq_map_of_traverse [Inhabited β] (acc : Accumulator α) (h : acc.traverse f = .ok t) :
    t = acc.map fun a => (f a).toOption.getD default := by
  obtain ⟨hshape, hleaves⟩ := traverse_eq_ok_iff.mp h
  refine eq_of_parts_eq _ _ (Prod.ext ?_ ?_)
  · exact hshape.trans (shape_map _ acc).symm
  · exact (Result.eq_map_of_mapM_eq_ok hleaves).trans (leaves_map _ acc).symm

/-- A leaf and its image: the step yields the image, and what is said of both is the same. -/
def IsImage (f : α → Result β) (x : α × Bool) (y : β × Bool) : Prop :=
  f x.1 = .ok y.1 ∧ x.2 = y.2

theorem forall₂_isImage {xs : List (α × Bool)} {ys : List (β × Bool)}
    (hleaves : (xs.map Prod.fst).mapM f = .ok (ys.map Prod.fst))
    (hflags : ys.map Prod.snd = xs.map Prod.snd) : List.Forall₂ (IsImage f) xs ys := by
  replace hleaves := List.forall₂_map_left_iff.mp
    (List.forall₂_map_right_iff.mp (Result.mapM_eq_ok_iff.mp hleaves))
  induction hleaves with
  | nil => exact .nil
  | cons hxy _ ih =>
    obtain ⟨hflag, hflags⟩ := List.cons.inj hflags
    exact .cons ⟨hxy, hflag.symm⟩ (ih hflags)

/-- A traversal that succeeds acts on the leaves in place. -/
theorem visitFrom_of_traverse (b : Bool) (acc : Accumulator α) (h : acc.traverse f = .ok t) :
    List.Forall₂ (IsImage f) (acc.visitFrom b) (t.visitFrom b) := by
  obtain ⟨hshape, hleaves⟩ := traverse_eq_ok_iff.mp h
  rw [← map_fst_visitFrom b acc, ← map_fst_visitFrom b t] at hleaves
  exact forall₂_isImage hleaves (map_snd_visitFrom_eq_of_shape_eq hshape b)

/-- To replace the leaves by a function that cannot fail is to map. -/
theorem traverse_ok (f : α → β) (acc : Accumulator α) :
    (acc.traverse fun a => (.ok (f a) : Result β)) = .ok (acc.map f) := by
  refine traverse_eq_ok_iff.mpr ⟨shape_map f acc, ?_⟩
  rw [leaves_map, Result.mapM_eq_ok_iff, List.forall₂_map_right_iff]
  exact List.forall₂_same.mpr fun _ _ => rfl

end

/-! ### Functions with a state -/

section

variable {f : α → ExceptT Error (StateM σ) β} {g : β → ExceptT Error (StateM τ) γ}
  {acc : Accumulator α} {t : Accumulator β} {s s' : σ} {e : Error}

/-- What a traversal yields has the shape of its tree and the leaves that the list of steps
yields. -/
theorem exists_yields_traverse_iff {p : Accumulator Unit × List β} :
    (∃ t, Yields (acc.traverse f) s t s' ∧ t.parts = p) ↔
      p.1 = acc.shape ∧ Yields (acc.leaves.mapM f) s p.2 s' := by
  rw [← yields_map_iff, parts_traverse, yields_map_iff]
  constructor
  · rintro ⟨bs, h, rfl⟩
    exact ⟨rfl, h⟩
  · rintro ⟨hshape, h⟩
    exact ⟨p.2, h, Prod.ext hshape.symm rfl⟩

theorem yields_traverse_iff :
    Yields (acc.traverse f) s t s' ↔
      t.shape = acc.shape ∧ Yields (acc.leaves.mapM f) s t.leaves s' := by
  refine Iff.trans ?_ (exists_yields_traverse_iff (p := t.parts))
  constructor
  · exact fun h => ⟨t, h, rfl⟩
  · rintro ⟨t', h, hparts⟩
    rwa [← eq_of_parts_eq t' t hparts]

theorem breaksOff_traverse_iff :
    BreaksOff (acc.traverse f) s e s' ↔ BreaksOff (acc.leaves.mapM f) s e s' :=
  calc BreaksOff (acc.traverse f) s e s'
    _ ↔ BreaksOff (parts <$> acc.traverse f) s e s' := breaksOff_map_iff.symm
    _ ↔ BreaksOff ((acc.parts.1, ·) <$> acc.parts.2.mapM f) s e s' := by rw [parts_traverse]
    _ ↔ BreaksOff (acc.leaves.mapM f) s e s' := breaksOff_map_iff

/-- A function that uses no state leaves it as it is. -/
theorem run_traverse_lift (f : α → Result β) (acc : Accumulator α) (s : σ) :
    (acc.traverse fun a => (liftM (f a) : ExceptT Error (StateM σ) β)).run.run s =
      (acc.traverse f, s) := by
  have hlist := run_mapM_lift f acc.leaves s
  cases h : acc.traverse f with
  | error e =>
    rw [traverse_eq_error_iff.mp h] at hlist
    exact breaksOff_traverse_iff.mpr hlist
  | ok t =>
    obtain ⟨hshape, hleaves⟩ := traverse_eq_ok_iff.mp h
    rw [hleaves] at hlist
    exact yields_traverse_iff.mpr ⟨hshape, hlist⟩

/-- To traverse with both of two functions is to traverse twice, if all succeeds. -/
theorem yields_traverse_andThen_iff {v : Accumulator γ} {u u' : τ} :
    Yields (acc.traverse (andThen f g)) (s, u) v (s', u') ↔
      ∃ t, Yields (acc.traverse f) s t s' ∧ Yields (t.traverse g) u v u' := by
  rw [yields_traverse_iff, yields_mapM_andThen_iff]
  constructor
  · rintro ⟨hshape, bs, hf, hg⟩
    obtain ⟨t, ht, hparts⟩ := exists_yields_traverse_iff (p := (_, bs)) |>.mpr ⟨rfl, hf⟩
    obtain ⟨hshape', rfl⟩ := Prod.mk.inj hparts
    exact ⟨t, ht, yields_traverse_iff.mpr ⟨hshape.trans hshape'.symm, hg⟩⟩
  · rintro ⟨t, hf, hg⟩
    obtain ⟨hshape, hf⟩ := yields_traverse_iff.mp hf
    obtain ⟨hshape', hg⟩ := yields_traverse_iff.mp hg
    exact ⟨hshape'.trans hshape, t.leaves, hf, hg⟩

/-- If the first function succeeds for all leaves, then both fail where the second does. -/
theorem breaksOff_traverse_andThen_iff {u u' : τ} (h : Yields (acc.traverse f) s t s') :
    (∃ s₁, BreaksOff (acc.traverse (andThen f g)) (s, u) e (s₁, u')) ↔
      BreaksOff (t.traverse g) u e u' := by
  obtain ⟨-, hleaves⟩ := yields_traverse_iff.mp h
  simp only [breaksOff_traverse_iff]
  exact breaksOff_mapM_andThen_iff hleaves

end

/-- **The views of a tree and its traversals agree.** The leftmost leaf is the first in the list of
leaves. A traversal calls its function for the leaves in the order of this list; it stops at the
first failure, which it returns, and without one it yields the tree of the same shape whose leaves
are the results in order. Which leaves lie beneath an aggregate and which functions the aggregates
have stays as it is. To traverse once with two functions is to traverse twice; where both ways fail
after a first traversal that succeeds, they fail alike.

The functions read and write states of their own. Functions without a state and functions that
cannot fail are special cases. -/
theorem traverse_in_order (acc : Accumulator α) :
    acc.leaves.head? = some acc.first ∧
    (∀ (f : α → ExceptT Error (StateM σ) β) (s s' : σ),
      (∀ e, BreaksOff (acc.traverse f) s e s' ↔
        ∃ before a after bs s₁, acc.leaves = before ++ a :: after ∧
          Yields (before.mapM f) s bs s₁ ∧ BreaksOff (f a) s₁ e s') ∧
      (∀ t, Yields (acc.traverse f) s t s' ↔
        t.shape = acc.shape ∧ Yields (acc.leaves.mapM f) s t.leaves s') ∧
      (∀ (g : β → ExceptT Error (StateM τ) γ) (u u' : τ) (v : Accumulator γ),
        Yields (acc.traverse (andThen f g)) (s, u) v (s', u') ↔
          ∃ t, Yields (acc.traverse f) s t s' ∧ Yields (t.traverse g) u v u') ∧
      ∀ t, Yields (acc.traverse f) s t s' →
        t.visit.map Prod.snd = acc.visit.map Prod.snd ∧
        t.aggregates.map Prod.fst = acc.aggregates.map Prod.fst ∧
        ∀ (g : β → ExceptT Error (StateM τ) γ) (u u' : τ) (e : Error),
          (∃ s₁, BreaksOff (acc.traverse (andThen f g)) (s, u) e (s₁, u')) ↔
            BreaksOff (t.traverse g) u e u') ∧
    (∀ f : α → Result β,
      (∀ s : σ, (acc.traverse fun a => (liftM (f a) : ExceptT Error (StateM σ) β)).run.run s =
        (acc.traverse f, s)) ∧
      ∀ t, acc.traverse f = .ok t → ∀ g : β → Result γ,
        (acc.traverse fun a => f a >>= g) = t.traverse g) ∧
    ∀ f : α → β, (acc.traverse fun a => (.ok (f a) : Result β)) = .ok (acc.map f) := by
  refine ⟨head?_leaves acc, fun f s s' => ⟨fun e => ?_, fun t => yields_traverse_iff,
    fun g u u' v => yields_traverse_andThen_iff, fun t ht => ?_⟩,
    fun f => ⟨run_traverse_lift f acc, fun t ht g => traverse_bind ht⟩, fun f => traverse_ok f acc⟩
  · rw [breaksOff_traverse_iff, breaksOff_mapM_iff]
  · -- Places and aggregates depend on the shape only.
    obtain ⟨hshape, -⟩ := yields_traverse_iff.mp ht
    exact ⟨map_snd_visitFrom_eq_of_shape_eq hshape false,
      map_fst_aggregates_eq_of_shape_eq hshape,
      fun g u u' e => breaksOff_traverse_andThen_iff ht⟩

/-- A function that notes each leaf and then adds one to it, but for one that it refuses: in
`3 + COUNT(5) + 7` it is called for all leaves if it refuses none of them, and not for `7` if it
refuses `5`. -/
theorem traverse_in_order_noting :
    let acc : Accumulator Nat :=
      .binary .add (.binary .add (.leaf 3) (.wrap (.aggregate .count) (.leaf 5))) (.leaf 7)
    let noting (refused : Nat) (n : Nat) : ExceptT Error (StateM (List Nat)) Nat := do
      modify (· ++ [n])
      if n = refused then throw (.driver "refused") else return n + 1
    let t : Accumulator Nat :=
      .binary .add (.binary .add (.leaf 4) (.wrap (.aggregate .count) (.leaf 6))) (.leaf 8)
    Yields (acc.traverse (noting 0)) [] t [3, 5, 7] ∧
      t.visit.map Prod.snd = acc.visit.map Prod.snd ∧
      t.aggregates.map Prod.fst = acc.aggregates.map Prod.fst ∧
      BreaksOff (acc.traverse (noting 5)) [] (.driver "refused") [3, 5] ∧
      (∃ before a after bs s₁, acc.leaves = before ++ a :: after ∧
        Yields (before.mapM (noting 5)) [] bs s₁ ∧
        BreaksOff (noting 5 a) s₁ (.driver "refused") [3, 5]) ∧
      acc.traverse (fun n => (.ok (n + 1) : Result Nat)) = .ok t ∧
      (acc.traverse fun n => (.ok (n + 1) : Result Nat) >>= fun n => (.ok (2 * n) : Result Nat)) =
        t.traverse fun n => .ok (2 * n) := by
  intro acc noting t
  have ht : Yields (acc.traverse (noting 0)) [] t [3, 5, 7] := rfl
  have he : BreaksOff (acc.traverse (noting 5)) [] (.driver "refused") [3, 5] := rfl
  obtain ⟨-, hall, hplain, -⟩ :=
    traverse_in_order (σ := List Nat) (τ := Unit) (β := Nat) (γ := Nat) acc
  obtain ⟨-, -, -, hkept⟩ := hall (noting 0) [] [3, 5, 7]
  obtain ⟨hstops, -, -, -⟩ := hall (noting 5) [] [3, 5]
  have hplus : acc.traverse (fun n => (.ok (n + 1) : Result Nat)) = .ok t := rfl
  exact ⟨ht, (hkept t ht).1, (hkept t ht).2.1, he, (hstops _).mp he, hplus,
    (hplain _).2 t hplus fun n => .ok (2 * n)⟩

end NestedQuery.Accumulator
