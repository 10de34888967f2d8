import NestedQuery.Proofs.Sql.Closed

/-!
# Where aggregates are written

A fragment occurs in another one if it stands there, or in the subject of a test in a list that
stands there. Every aggregate of a term occurs in the written term, just as the writer writes it
(`TermWriter.occurs_term`), so how the writer writes an aggregate says what the statement computes.
-/

namespace NestedQuery

namespace Fragment

/-- The fragment `g` stands in a fragment, or in the subject of a test in a list in it. -/
inductive Occurs (g : Fragment) : Fragment → Prop
  | here {f : Fragment} : g <:+: f → Occurs g f
  | subject {f subject : Fragment} {id : ParamId} :
      .inList subject id ∈ f → Occurs g subject → Occurs g f

theorem Occurs.mono {g f f' : Fragment} (h : Occurs g f) (hf : f <:+: f') : Occurs g f' := by
  cases h with
  | here h => exact .here (h.trans hf)
  | subject hmem h => exact .subject (hf.subset hmem) h

theorem infix_parens (f : Fragment) : f <:+: f.parens :=
  List.infix_append _ _ _

theorem infix_call (name : String) (f : Fragment) : f <:+: Fragment.call name f := by
  refine List.IsInfix.trans ?_ ((infix_parens _).trans (List.infix_cons (List.infix_refl _)))
  split
  · exact infix_parens f
  · exact List.infix_refl f

/-- Each of several fragments stands in what they are joined to. -/
theorem infix_joined {fs : List Fragment} {f : Fragment} (hf : f ∈ fs) (separator : Token) :
    f <:+: Fragment.joined fs separator := by
  rw [Fragment.joined]
  induction fs with
  | nil => exact absurd hf List.not_mem_nil
  | cons g fs ih =>
    cases fs with
    | nil =>
      obtain rfl := List.mem_singleton.mp hf
      exact List.intercalate_singleton ▸ List.infix_refl f
    | cons g' fs =>
      rw [List.intercalate_cons_cons]
      rcases List.mem_cons.mp hf with rfl | hf
      · rw [List.append_assoc]
        exact (List.prefix_append _ _).isInfix
      · exact (ih hf).trans (List.suffix_append _ _).isInfix

end Fragment

open Fragment

theorem Engine.infix_aggregate (e : Engine) (function : Aggregate) (operand : Fragment)
    (distinct : Bool) : operand <:+: e.aggregate function operand distinct := by
  have hoperand : operand <:+: if distinct then .token .distinct :: operand else operand := by
    split
    · exact List.infix_cons (List.infix_refl operand)
    · exact List.infix_refl operand
  have hcall := hoperand.trans (infix_call function.sqlName _)
  rcases e.aggregate_eq function operand distinct with heq | ⟨type, -, heq⟩
  · exact heq ▸ hcall
  · exact heq ▸ (hcall.trans (List.prefix_append _ _).isInfix).trans (infix_call _ _)

namespace TermWriter

variable (w : TermWriter)

theorem infix_marked (m : Marker) (value : Fragment) : value <:+: marked m value :=
  List.infix_append _ _ _

theorem infix_aggregate (function : Aggregate) (operand : Term) (value : Fragment) :
    value <:+: w.aggregate function operand value := by
  obtain ⟨f, argument, distinct, heq, rfl | ⟨m, -, rfl⟩⟩ := w.aggregate_eq function operand value
  · exact heq ▸ w.engine.infix_aggregate f _ distinct
  · exact heq ▸ (infix_marked m value).trans (w.engine.infix_aggregate f _ distinct)

theorem infix_asOperand (t : Term) (written : Fragment) : written <:+: asOperand t written := by
  unfold asOperand
  split
  · exact infix_parens written
  · exact List.infix_refl written

theorem occurs_membership_subject {g subject : Fragment} (h : Occurs g subject) (list : Term)
    (written : Fragment) : Occurs g (w.membership subject list written) := by
  have hin : Occurs g (subject ++ [.token .in_] ++ written.parens) := by
    rw [List.append_assoc]
    exact h.mono (List.prefix_append _ _).isInfix
  unfold membership
  split
  · split
    · exact .subject (List.mem_singleton_self _) h
    · exact hin
  · exact hin

theorem occurs_membership_list {g written : Fragment} (h : Occurs g written) (subject : Fragment)
    {list : Term} (hlist : ∀ id, list ≠ .leaf (.param id)) :
    Occurs g (w.membership subject list written) := by
  unfold membership
  split
  · exact absurd rfl (hlist _)
  · exact h.mono ((infix_parens written).trans (List.suffix_append _ _).isInfix)

theorem occurs_binary_left {g : Fragment} {left : Term} (h : Occurs g (w.term left)) (op : BinaryOp)
    (right : Term) : Occurs g (w.term (.binary op left right)) := by
  have hoperand := h.mono (infix_asOperand left _)
  have hoperator : ∀ c : Chunk, Occurs g
      (asOperand left (w.term left) ++ [c] ++ asOperand right (w.term right)) := fun c => by
    rw [List.append_assoc]
    exact hoperand.mono (List.prefix_append _ _).isInfix
  cases op with
  | isIn =>
    rw [term]
    exact w.occurs_membership_subject hoperand right _
  | comma =>
    rw [term, List.append_assoc]
    exact h.mono (List.prefix_append _ _).isInfix
  | _ => exact hoperator _

theorem occurs_binary_right {g : Fragment} {right : Term} (h : Occurs g (w.term right))
    (hright : ∀ id, right ≠ .leaf (.param id)) (op : BinaryOp) (left : Term) :
    Occurs g (w.term (.binary op left right)) := by
  have hoperator : ∀ c : Chunk, Occurs g
      (asOperand left (w.term left) ++ [c] ++ asOperand right (w.term right)) := fun c =>
    (h.mono (infix_asOperand right _)).mono (List.suffix_append _ _).isInfix
  cases op with
  | isIn =>
    rw [term]
    exact w.occurs_membership_list h _ hright
  | comma =>
    rw [term]
    exact h.mono (List.suffix_append _ _).isInfix
  | _ => exact hoperator _

mutual

/-- **Every aggregate occurs in the written term**, as the writer writes it. -/
theorem occurs_term : (t : Term) → ∀ x ∈ t.aggregates,
    Occurs (w.aggregate x.1 x.2 (w.term x.2)) (w.term t)
  | .leaf a, x, hx => absurd hx List.not_mem_nil
  | .binary op left right, x, hx => by
    rcases List.mem_append.mp hx with hmem | hmem
    · exact w.occurs_binary_left (occurs_term left x hmem) op right
    · -- A parameter on the right may be written as a list, but it has no aggregates.
      refine w.occurs_binary_right (occurs_term right x hmem) (fun id hleaf => ?_) op left
      rw [hleaf] at hmem
      exact absurd hmem List.not_mem_nil
  | .wrap .not operand, x, hx => by
    rw [term]
    exact ((occurs_term operand x hx).mono (infix_asOperand operand _)).mono
      (List.infix_cons (List.infix_refl _))
  | .wrap .negate operand, x, hx => by
    rw [term]
    exact ((occurs_term operand x hx).mono (infix_asOperand operand _)).mono
      (List.infix_cons (List.infix_refl _))
  | .wrap (.apply function) operand, x, hx => by
    rw [term]
    exact (occurs_term operand x hx).mono (infix_call _ _)
  | .wrap (.aggregate function) operand, x, hx => by
    rw [term]
    rcases List.mem_cons.mp hx with rfl | hx
    · exact .here (List.infix_refl _)
    · exact (occurs_term operand x hx).mono (w.infix_aggregate function operand _)
  | .cases bs otherwise, x, hx => by
    rw [term]
    rcases List.mem_append.mp hx with hx | hx
    · exact (occurs_branches bs x hx).mono ⟨[.token .case],
        [.token .else_] ++ w.term otherwise ++ [.token .end_], by simp⟩
    · exact (occurs_term otherwise x hx).mono (List.infix_append _ _ _)
  | .casesOf subject bs otherwise, x, hx => by
    rw [term]
    rcases List.mem_append.mp hx with hx | hx
    · exact ((occurs_term subject x hx).mono (infix_asOperand subject _)).mono
        ⟨[.token .case], w.branches bs ++ [.token .else_] ++ w.term otherwise ++ [.token .end_],
          by simp⟩
    · rcases List.mem_append.mp hx with hx | hx
      · exact (occurs_branches bs x hx).mono ⟨[.token .case] ++ asOperand subject (w.term subject),
          [.token .else_] ++ w.term otherwise ++ [.token .end_], by simp⟩
      · exact (occurs_term otherwise x hx).mono (List.infix_append _ _ _)

theorem occurs_branches : (bs : List (Term × Term)) →
    ∀ x ∈ Accumulator.aggregatesOfBranches bs,
      Occurs (w.aggregate x.1 x.2 (w.term x.2)) (w.branches bs)
  | [], x, hx => absurd hx List.not_mem_nil
  | (test, value) :: rest, x, hx => by
    rw [branches]
    rcases List.mem_append.mp hx with hx | hx
    · exact (occurs_term test x hx).mono ⟨[.token .when],
        [.token .then_] ++ w.term value ++ w.branches rest, by simp⟩
    · rcases List.mem_append.mp hx with hx | hx
      · exact (occurs_term value x hx).mono (List.infix_append _ _ _)
      · exact (occurs_branches rest x hx).mono (List.suffix_append _ _).isInfix

end

end TermWriter

end NestedQuery
