import NestedQuery.Proofs.Accumulator.Marks
import NestedQuery.Sql.Render

/-!
# The parameters of a fragment

`Fragment.uses` lists the parameters of a fragment in the order of their placeholders, with whether
each stands for one value or for a list; a list test also uses the parameters of its subject. If all
of them are bound to what they are used as, the fragment is rendered (`Fragment.exists_render`), and
it is if they are marked in a pool that was bound (`Fragment.IsMarked`).
-/

namespace NestedQuery

mutual

/-- The parameters of a chunk, each with whether it is used as a list. -/
def Chunk.uses : Chunk → List (ParamId × Bool)
  | .param id => [(id, false)]
  | .inList subject id => usesOf subject ++ [(id, true)]
  | _ => []

/-- The parameters of several chunks. -/
def usesOf : List Chunk → List (ParamId × Bool)
  | [] => []
  | c :: rest => c.uses ++ usesOf rest

end

/-- The parameters of a fragment, each with whether it is used as a list. -/
def Fragment.uses (f : Fragment) : List (ParamId × Bool) :=
  usesOf f

/-! ### Rendering -/

variable {bound : List Value}

theorem exists_paramHole_eq_ok {id : ParamId} {v : Value} (h : v.items?.isSome = false) :
    ∃ p, paramHole id v = .ok p := by
  cases v with
  | list items => cases h
  | _ => exact ⟨_, rfl⟩

theorem exists_listItems_eq_ok {id : ParamId} {v : Value} (h : v.items?.isSome = true) :
    ∃ items, listItems id v = .ok items := by
  cases v with
  | list items => exact ⟨items, rfl⟩
  | _ => cases h

theorem boundValue_of_getElem?_eq_some {id : ParamId} {v : Value} (h : bound[id]? = some v) :
    boundValue bound id = .ok v := by
  rw [boundValue, h]

mutual

theorem Chunk.exists_pieces_eq_ok : (c : Chunk) → (∀ use ∈ c.uses, IsBound bound use) →
    ∃ ps, c.pieces bound = .ok ps
  | .token _, _ | .ident _, _ | .raw _, _ | .function _, _ | .number _, _ => ⟨_, rfl⟩
  | .param id, h => by
    obtain ⟨v, hv, hsingle⟩ := h (id, false) (List.mem_singleton_self _)
    obtain ⟨p, hp⟩ := exists_paramHole_eq_ok hsingle
    exact ⟨[p], Result.bind_eq_ok_iff.mpr ⟨v, boundValue_of_getElem?_eq_some hv,
      Result.bind_eq_ok_iff.mpr ⟨p, hp, rfl⟩⟩⟩
  | .inList subject id, h => by
    obtain ⟨hsubject, hlist⟩ := List.forall_mem_append.mp h
    obtain ⟨v, hv, hitems⟩ := hlist (id, true) (List.mem_singleton_self _)
    obtain ⟨items, hitems⟩ := exists_listItems_eq_ok hitems
    obtain ⟨before, hbefore⟩ := exists_piecesOf_eq_ok subject hsubject
    rw [Chunk.pieces, boundValue_of_getElem?_eq_some hv]
    show ∃ ps, (listItems id v >>= _) = _
    rw [hitems, hbefore]
    -- A test in an empty list does not write its subject.
    show ∃ ps, (if items.isEmpty then _ else _) = _
    split
    · exact ⟨_, rfl⟩
    · exact ⟨_, rfl⟩

theorem exists_piecesOf_eq_ok : (f : List Chunk) → (∀ use ∈ usesOf f, IsBound bound use) →
    ∃ ps, piecesOf bound f = .ok ps
  | [], _ => ⟨[], rfl⟩
  | c :: rest, h => by
    obtain ⟨hc, hrest⟩ := List.forall_mem_append.mp h
    obtain ⟨ps, hps⟩ := Chunk.exists_pieces_eq_ok c hc
    obtain ⟨qs, hqs⟩ := exists_piecesOf_eq_ok rest hrest
    exact ⟨_, Result.bind_eq_ok_iff.mpr ⟨ps, hps, Result.bind_eq_ok_iff.mpr ⟨qs, hqs, rfl⟩⟩⟩

end

/-- **A fragment is rendered** if its parameters have values: lists where it tests membership in
them, and no lists elsewhere. -/
theorem Fragment.exists_render {f : Fragment} (h : ∀ use ∈ f.uses, IsBound bound use)
    (dialect : Dialect) : ∃ r, f.render dialect bound = .ok r := by
  obtain ⟨ps, hps⟩ := exists_piecesOf_eq_ok f h
  exact ⟨_, Result.bind_eq_ok_iff.mpr ⟨ps, hps, rfl⟩⟩

/-! ### Marked fragments -/

/-- Every parameter of the fragment has a slot that is marked as what it is used as. -/
def Fragment.IsMarked (p : Pool) (f : Fragment) : Prop :=
  ∀ use ∈ f.uses, p.Marks use.1 use.2

namespace Fragment

variable {p : Pool} {f g : Fragment} {arguments : Document}

/-- **What is marked is rendered** whenever the pool is bound. -/
theorem IsMarked.exists_render (h : f.IsMarked p) (hbind : p.bind arguments = .ok bound)
    (dialect : Dialect) : ∃ r, f.render dialect bound = .ok r :=
  f.exists_render (fun use huse => (h use huse).isBound hbind) dialect

theorem uses_append (f g : Fragment) : uses (f ++ g) = f.uses ++ g.uses := by
  induction f with
  | nil => rfl
  | cons c f ih =>
    show c.uses ++ uses (f ++ g) = c.uses ++ usesOf f ++ uses g
    rw [ih, List.append_assoc]
    rfl

@[simp] theorem isMarked_nil : IsMarked p [] :=
  fun _ huse => absurd huse List.not_mem_nil

@[simp] theorem isMarked_append : IsMarked p (f ++ g) ↔ IsMarked p f ∧ IsMarked p g := by
  rw [IsMarked, uses_append]
  exact List.forall_mem_append

@[simp] theorem isMarked_cons {c : Chunk} :
    IsMarked p (c :: f) ↔ (∀ use ∈ c.uses, p.Marks use.1 use.2) ∧ IsMarked p f :=
  List.forall_mem_append

/-- A fragment of chunks without parameters. -/
theorem isMarked_of_uses_eq_nil (h : f.uses = []) : IsMarked p f := by
  rw [IsMarked, h]
  exact fun _ huse => absurd huse List.not_mem_nil

@[simp] theorem isMarked_param {id : ParamId} : IsMarked p [.param id] ↔ p.Marks id false := by
  simp [Chunk.uses]

@[simp] theorem isMarked_inList {id : ParamId} :
    IsMarked p [.inList f id] ↔ IsMarked p f ∧ p.Marks id true := by
  rw [isMarked_cons, Chunk.uses, List.forall_mem_append, List.forall_mem_singleton]
  exact and_iff_left isMarked_nil

@[simp] theorem isMarked_parens : IsMarked p f.parens ↔ IsMarked p f := by
  simp [parens, Chunk.uses]

@[simp] theorem isMarked_qualified (table column : String) : IsMarked p (qualified table column) :=
  isMarked_of_uses_eq_nil rfl

@[simp] theorem isMarked_named {name : String} : IsMarked p (f.named name) ↔ IsMarked p f := by
  simp [named, Chunk.uses]

@[simp] theorem isMarked_call {name : String} : IsMarked p (call name f) ↔ IsMarked p f := by
  unfold call
  split <;> simp [Chunk.uses]

theorem isMarked_joined {fs : List Fragment} (h : ∀ f ∈ fs, IsMarked p f) :
    IsMarked p (joined fs .comma) := by
  rw [joined]
  induction fs with
  | nil => exact isMarked_nil
  | cons f fs ih =>
    obtain ⟨hf, hfs⟩ := List.forall_mem_cons.mp h
    cases fs with
    | nil => rwa [List.intercalate_singleton]
    | cons g fs =>
      rw [List.intercalate_cons_cons, isMarked_append, isMarked_append]
      exact ⟨⟨hf, isMarked_of_uses_eq_nil rfl⟩, ih hfs⟩

end Fragment

end NestedQuery
