import NestedQuery.Proofs.Result
import NestedQuery.Sql.Render

/-!
# The text of a statement and the values bound to it

The text of a rendered fragment is decided by the fragment, the dialect and the shape of the bound
values: which of them are lists, and how long these are. What the values are never shows.

`Piece.outline` keeps of a piece what goes into the text. Two lists of values of one shape give a
fragment pieces of one outline, or make it fail alike (`piecesOf_alike`), and the outlines
decide the text and the number of parameters (`ofPieces_eq_of_sameOutline`). The main statement is
`Fragment.render_ignores_values`.
-/

namespace NestedQuery

/-! ### Two runs that go alike -/

/-- Both runs fail with the same error, or both succeed with related results. -/
def Result.Alike {α : Type} (R : α → α → Prop) : Result α → Result α → Prop
  | .ok a, .ok b => R a b
  | .error e, .error e' => e = e'
  | _, _ => False

section

variable {α β : Type} {R : α → α → Prop} {S : β → β → Prop}

theorem Result.alike_iff {x y : Result α} :
    x.Alike R y ↔
      (∃ e, x = .error e ∧ y = .error e) ∨ ∃ a b, x = .ok a ∧ y = .ok b ∧ R a b := by
  cases x <;> cases y <;> simp [Alike, eq_comm]

/-- Runs go alike if their first steps do and related results are continued alike. -/
theorem Result.Alike.bind {x y : Result α} (h : x.Alike R y) {f g : α → Result β}
    (hfg : ∀ a b, R a b → (f a).Alike S (g b)) : (x >>= f).Alike S (y >>= g) := by
  obtain ⟨e, rfl, rfl⟩ | ⟨a, b, rfl, rfl, hab⟩ := alike_iff.mp h
  · exact rfl
  · exact hfg a b hab

end

/-! ### Shapes of values -/

/-- The number of items of a list; nothing for any other value. -/
def Value.listLength? : Value → Option Nat
  | .list items => some items.length
  | _ => none

/-- Both values are lists of one length, or neither is a list. -/
def Value.SameShape (v w : Value) : Prop :=
  v.listLength? = w.listLength?

instance (v w : Value) : Decidable (v.SameShape w) :=
  inferInstanceAs (Decidable (_ = _))

variable {bound bound' : List Value}

theorem boundValue_alike (h : List.Forall₂ Value.SameShape bound bound') (id : ParamId) :
    (boundValue bound id).Alike Value.SameShape (boundValue bound' id) := by
  rw [boundValue, boundValue]
  by_cases hid : id < bound.length
  · have hid' : id < bound'.length := h.length_eq ▸ hid
    rw [List.getElem?_eq_getElem hid, List.getElem?_eq_getElem hid']
    exact h.get hid hid'
  · have hid' : ¬ id < bound'.length := h.length_eq ▸ hid
    rw [List.getElem?_eq_none (Nat.le_of_not_lt hid), List.getElem?_eq_none (Nat.le_of_not_lt hid')]
    exact rfl

/-! ### Outlines -/

/-- The text of a piece of text; nothing for a hole. -/
def Piece.outline : Piece → Option String
  | .text s => some s
  | .hole _ => none

/-- The pieces differ at most in the values of their holes. -/
def SameOutline (ps qs : List Piece) : Prop :=
  ps.map Piece.outline = qs.map Piece.outline

theorem SameOutline.refl (ps : List Piece) : SameOutline ps ps := Eq.refl _

theorem SameOutline.append {ps qs ps' qs' : List Piece} (h : SameOutline ps qs)
    (h' : SameOutline ps' qs') : SameOutline (ps ++ ps') (qs ++ qs') := by
  rw [SameOutline, List.map_append, List.map_append, h, h']

/-- As many holes, whatever their values. -/
theorem holes_sameOutline {vs ws : List Value} (h : vs.length = ws.length) :
    SameOutline (holes vs) (holes ws) := by
  induction vs using holes.induct generalizing ws with
  | case1 =>
    obtain rfl := List.length_eq_zero_iff.mp h.symm
    exact .refl _
  | case2 v =>
    obtain ⟨w, rfl⟩ := List.length_eq_one_iff.mp h.symm
    exact Eq.refl [none]
  | case3 v vs hvs ih =>
    match ws, h with
    | w :: w' :: ws, h =>
      have hrest : SameOutline (holes vs) (holes (w' :: ws)) := ih (Nat.succ.inj h)
      have hfirst : SameOutline [.hole v, .text ", "] [.hole w, .text ", "] := Eq.refl _
      have hvs : holes (v :: vs) = [.hole v, .text ", "] ++ holes vs := by
        cases vs with
        | nil => exact absurd rfl hvs
        | cons v' vs => rfl
      exact hvs ▸ hfirst.append hrest
    | [w], h => exact absurd (List.length_eq_zero_iff.mp (Nat.succ.inj h)) hvs

/-- The text does not show what is in the holes. -/
theorem spell_eq_of_sameOutline {ps qs : List Piece} (h : SameOutline ps qs) (dialect : Dialect)
    (count : Nat) : spell dialect count ps = spell dialect count qs := by
  induction ps generalizing qs count with
  | nil =>
    obtain rfl := List.map_eq_nil_iff.mp h.symm
    rfl
  | cons p ps ih =>
    obtain ⟨q, qs, rfl, hq, hqs⟩ := List.map_eq_cons_iff.mp h.symm
    have ih := fun count => ih hqs.symm count
    cases p <;> cases q <;> simp_all [Piece.outline, spell]

/-- There is one parameter for each hole. -/
theorem length_holeValues (ps : List Piece) :
    (holeValues ps).length = (ps.map Piece.outline).count none := by
  induction ps with
  | nil => rfl
  | cons p ps ih => cases p <;> simp_all [holeValues, Piece.outline]

/-! ### Pieces -/

/-- A single parameter is a hole, or it fails for being a list. -/
theorem paramHole_alike {v w : Value} (h : v.SameShape w) (id : ParamId) :
    (paramHole id v).Alike (fun p q => p.outline = q.outline) (paramHole id w) := by
  cases v <;> cases w <;> first | rfl | exact absurd h nofun

/-- A list parameter has as many items, or it fails for not being a list. -/
theorem listItems_alike {v w : Value} (h : v.SameShape w) (id : ParamId) :
    (listItems id v).Alike (fun vs ws => vs.length = ws.length) (listItems id w) := by
  cases v <;> cases w <;> first | rfl | exact Option.some.inj h | exact absurd h nofun

mutual

theorem Chunk.pieces_alike (h : List.Forall₂ Value.SameShape bound bound') :
    ∀ c : Chunk, (c.pieces bound).Alike SameOutline (c.pieces bound')
  | .token _ | .ident _ | .raw _ | .function _ | .number _ => SameOutline.refl _
  | .param id => by
    rw [Chunk.pieces, Chunk.pieces]
    refine (boundValue_alike h id).bind fun v w hvw => ?_
    refine (paramHole_alike hvw id).bind fun p q hpq => ?_
    exact congrArg ([·]) hpq
  | .inList subject id => by
    rw [Chunk.pieces, Chunk.pieces]
    refine (boundValue_alike h id).bind fun v w hvw => ?_
    refine (listItems_alike hvw id).bind fun vs ws hlength => ?_
    have hempty : vs.isEmpty = ws.isEmpty := by
      rw [Bool.eq_iff_iff, List.isEmpty_iff_length_eq_zero, List.isEmpty_iff_length_eq_zero,
        hlength]
    rw [hempty]
    cases ws.isEmpty with
    | true => exact SameOutline.refl _
    | false =>
      refine (piecesOf_alike h subject).bind fun ps qs hpq => ?_
      have hitems := (SameOutline.refl [.text " IN ("]).append (holes_sameOutline hlength)
      exact (hpq.append hitems).append (.refl [.text ")"])

theorem piecesOf_alike (h : List.Forall₂ Value.SameShape bound bound') :
    ∀ f : List Chunk, (piecesOf bound f).Alike SameOutline (piecesOf bound' f)
  | [] => SameOutline.refl []
  | c :: rest => by
    rw [piecesOf, piecesOf]
    refine (c.pieces_alike h).bind fun ps qs hpq => ?_
    refine (piecesOf_alike h rest).bind fun ps' qs' hpq' => ?_
    exact (hpq.append (.refl (gap c rest))).append hpq'

end

/-! ### Fragments without list parameters -/

/-- A single parameter that succeeds is a hole. -/
theorem outline_of_paramHole {id : ParamId} {v : Value} {p : Piece} (h : paramHole id v = .ok p) :
    p.outline = none := by
  cases v <;> first | (cases h; rfl) | exact absurd h nofun

/-- Apart from tests in list parameters, a chunk that succeeds has one outline. -/
theorem Chunk.pieces_sameOutline {c : Chunk} (hc : ∀ subject id, c ≠ .inList subject id)
    {ps qs : List Piece} (hps : c.pieces bound = .ok ps) (hqs : c.pieces bound' = .ok qs) :
    SameOutline ps qs := by
  cases c with
  | inList subject id => exact absurd rfl (hc subject id)
  | param id =>
    rw [Chunk.pieces] at hps hqs
    obtain ⟨v, -, hps⟩ := Result.bind_eq_ok_iff.mp hps
    obtain ⟨p, hp, hps⟩ := Result.bind_eq_ok_iff.mp hps
    obtain ⟨w, -, hqs⟩ := Result.bind_eq_ok_iff.mp hqs
    obtain ⟨q, hq, hqs⟩ := Result.bind_eq_ok_iff.mp hqs
    obtain rfl := Result.pure_eq_ok_iff.mp hps
    obtain rfl := Result.pure_eq_ok_iff.mp hqs
    exact congrArg ([·]) ((outline_of_paramHole hp).trans (outline_of_paramHole hq).symm)
  | _ => exact congrArg _ (Except.ok.inj (hps.symm.trans hqs))

/-- Without list parameters the shapes of the values do not matter either. -/
theorem piecesOf_sameOutline {f : Fragment} (hf : f.hasLists = false) {ps qs : List Piece}
    (hps : piecesOf bound f = .ok ps) (hqs : piecesOf bound' f = .ok qs) : SameOutline ps qs := by
  induction f generalizing ps qs with
  | nil => exact congrArg _ (Except.ok.inj (hps.symm.trans hqs))
  | cons c rest ih =>
    obtain ⟨hc, hrest⟩ := Bool.or_eq_false_iff.mp hf
    rw [piecesOf] at hps hqs
    obtain ⟨ps₁, hps₁, hps⟩ := Result.bind_eq_ok_iff.mp hps
    obtain ⟨ps₂, hps₂, hps⟩ := Result.bind_eq_ok_iff.mp hps
    obtain ⟨qs₁, hqs₁, hqs⟩ := Result.bind_eq_ok_iff.mp hqs
    obtain ⟨qs₂, hqs₂, hqs⟩ := Result.bind_eq_ok_iff.mp hqs
    obtain rfl := Result.pure_eq_ok_iff.mp hps
    obtain rfl := Result.pure_eq_ok_iff.mp hqs
    have hchunk : SameOutline ps₁ qs₁ :=
      c.pieces_sameOutline (fun _ _ heq => by simp [heq] at hc) hps₁ hqs₁
    exact (hchunk.append (.refl (gap c rest))).append (ih hrest hps₂ hqs₂)

/-! ### Rendering -/

/-- The text and the number of parameters of a statement are those of its outline. -/
theorem ofPieces_eq_of_sameOutline {ps qs : List Piece} (h : SameOutline ps qs)
    (dialect : Dialect) :
    (Rendered.ofPieces dialect ps).text = (Rendered.ofPieces dialect qs).text ∧
      (Rendered.ofPieces dialect ps).params.length =
        (Rendered.ofPieces dialect qs).params.length := by
  refine ⟨spell_eq_of_sameOutline h dialect 0, ?_⟩
  rw [Rendered.ofPieces, Rendered.ofPieces, length_holeValues, length_holeValues, h]

/-- The text never shows what is bound. Two lists of values of one shape make a fragment fail with
the same error, or give it the same text and as many parameters; and a fragment without list
parameters has one text, whatever is bound. -/
theorem Fragment.render_ignores_values (f : Fragment) (dialect : Dialect) :
    (∀ bound bound', List.Forall₂ Value.SameShape bound bound' →
      (∃ e, f.render dialect bound = .error e ∧ f.render dialect bound' = .error e) ∨
      ∃ r r', f.render dialect bound = .ok r ∧ f.render dialect bound' = .ok r' ∧
        r.text = r'.text ∧ r.params.length = r'.params.length) ∧
    (f.hasLists = false → ∀ bound bound' r r',
      f.render dialect bound = .ok r → f.render dialect bound' = .ok r' →
        r.text = r'.text ∧ r.params.length = r'.params.length) := by
  constructor
  · intro bound bound' h
    refine Result.alike_iff.mp ((piecesOf_alike h f).bind fun ps qs hpq => ?_)
    exact ofPieces_eq_of_sameOutline hpq dialect
  · intro hf bound bound' r r' hr hr'
    obtain ⟨ps, hps, hr⟩ := Result.bind_eq_ok_iff.mp hr
    obtain ⟨qs, hqs, hr'⟩ := Result.bind_eq_ok_iff.mp hr'
    obtain rfl := Result.pure_eq_ok_iff.mp hr
    obtain rfl := Result.pure_eq_ok_iff.mp hr'
    exact ofPieces_eq_of_sameOutline (piecesOf_sameOutline hf hps hqs) dialect

/-- A membership test in the subject of another: whether the outcome of `? IN (..)` is in a second
list. -/
def nestedMembership : Fragment :=
  [.inList [.inList [.param 0] 1] 2]

theorem nestedMembership_text :
    (∃ r r', nestedMembership.render .postgresql
        [.text "a", .list [.text "b", .null], .list [.bool true]] = .ok r ∧
      nestedMembership.render .postgresql
        [.integer 7, .list [.text "') --", .text ""], .list [.list []]] = .ok r' ∧
      r.text = r'.text ∧ r.params.length = r'.params.length) ∧
    ∃ r r', (Fragment.param 0).render .postgresql [.text "') --"] = .ok r ∧
      (Fragment.param 0).render .postgresql [.null, .list []] = .ok r' ∧ r.text = r'.text := by
  constructor
  · have hshape : List.Forall₂ Value.SameShape
        [.text "a", .list [.text "b", .null], .list [.bool true]]
        [.integer 7, .list [.text "') --", .text ""], .list [.list []]] :=
      .cons rfl (.cons rfl (.cons rfl .nil))
    obtain ⟨e, he, -⟩ | h :=
      (nestedMembership.render_ignores_values .postgresql).1 _ _ hshape
    · exact absurd he nofun
    · exact h
  · have h := ((Fragment.param 0).render_ignores_values .postgresql).2 rfl
    exact ⟨_, _, rfl, rfl, (h [.text "') --"] [.null, .list []] _ _ rfl rfl).1⟩

end NestedQuery
