import Mathlib.Data.List.Perm.Subperm
import NestedQuery.Resolution

/-!
# Qualification

Where a path starts is the row of the shape or a binding, which has a path of its own; following
bindings gives a chain (`Root.Reaches`). A chain that passes more bindings than there are passes one
of them twice, and then it runs in a circle (`Root.Reaches.runsInCircle_of_length_lt`). So every
chain either ends, at the row or at a binding that was never made, or it runs in a circle, and the
number of steps that `qualify` allows for is enough to tell which (`qualify_exact`).
-/

namespace NestedQuery

/-- The chain starts at the row or at one of the first `n` bindings. -/
def Root.IsWithin (n : Nat) : Root → Prop
  | .row => True
  | .binding id => id < n

namespace Root.IsWithin

variable {root : Root} {m n : Nat}

theorem mono (h : root.IsWithin m) (hmn : m ≤ n) : root.IsWithin n := by
  cases root with
  | row => trivial
  | binding id => exact Nat.lt_of_lt_of_le h hmn

/-- The row needs no binding. -/
theorem row (n : Nat) : Root.row.IsWithin n :=
  trivial

theorem binding {id : BindingId} (h : id < n) : (Root.binding id).IsWithin n :=
  h

end Root.IsWithin

/-! ### Chains -/

/-- Following bindings from one root leads to another. `passed` are the bindings on the way, the
innermost first. -/
inductive Root.Reaches (bindings : List Binding) : Root → List Binding → Root → Prop
  /-- No step leads away. -/
  | here (root : Root) : Reaches bindings root [] root
  /-- A step leads to where the binding's path starts. -/
  | via {id : BindingId} {b : Binding} {passed : List Binding} {root : Root}
      (hb : bindings[id]? = some b) (h : Reaches bindings b.root passed root) :
      Reaches bindings (.binding id) (b :: passed) root

/-- No binding leads further: this is the row, or a binding that was never made. -/
def Root.IsEnd (bindings : List Binding) : Root → Prop
  | .row => True
  | .binding id => bindings[id]? = none

/-- Following bindings from the root leads to one and from there back to it. -/
def Root.RunsInCircle (bindings : List Binding) (root : Root) : Prop :=
  ∃ passed next circle, root.Reaches bindings passed next ∧ circle ≠ [] ∧
    next.Reaches bindings circle next

namespace Root

variable {bindings passed : List Binding} {root next last : Root}

namespace Reaches

theorem subset (h : root.Reaches bindings passed next) : passed ⊆ bindings := by
  induction h with
  | here => exact List.nil_subset _
  | via hb _ ih => exact List.cons_subset.mpr ⟨List.mem_of_getElem? hb, ih⟩

/-- The way to one of the bindings that are passed. -/
theorem exists_of_mem (h : root.Reaches bindings passed next) {b : Binding} (hb : b ∈ passed) :
    ∃ way, way ≠ [] ∧ root.Reaches bindings way b.root := by
  induction h with
  | here => exact absurd hb List.not_mem_nil
  | @via id b' _ _ hb' _ ih =>
    rcases List.mem_cons.mp hb with rfl | hb
    · exact ⟨[b], List.cons_ne_nil _ _, .via hb' (.here _)⟩
    · obtain ⟨way, -, hway⟩ := ih hb
      exact ⟨b' :: way, List.cons_ne_nil _ _, .via hb' hway⟩

end Reaches

/-! ### Circles -/

namespace RunsInCircle

theorem via {id : BindingId} {b : Binding} (hb : bindings[id]? = some b)
    (h : b.root.RunsInCircle bindings) : (binding id).RunsInCircle bindings := by
  obtain ⟨passed, next, circle, hnext, hcircle⟩ := h
  exact ⟨b :: passed, next, circle, .via hb hnext, hcircle⟩

/-- A chain that runs in a circle takes a step and still does. -/
theorem exists_step (h : root.RunsInCircle bindings) :
    ∃ id b, root = .binding id ∧ bindings[id]? = some b ∧ b.root.RunsInCircle bindings := by
  obtain ⟨passed, next, circle, hnext, hne, hcircle⟩ := h
  cases hnext with
  | via hb hnext => exact ⟨_, _, rfl, hb, _, _, circle, hnext, hne, hcircle⟩
  | here =>
    -- The root is on the circle itself, so its first step stays on it.
    cases hcircle with
    | here => exact absurd rfl hne
    | via hb h => exact ⟨_, _, rfl, hb, _, _, _, h, hne, .via hb h⟩

/-- A chain that runs in a circle has no end. -/
theorem not_reaches (h : root.RunsInCircle bindings) (hlast : last.IsEnd bindings) :
    ¬ root.Reaches bindings passed last := by
  intro hend
  induction hend with
  | here root =>
    obtain ⟨id, b, rfl, hb, -⟩ := h.exists_step
    exact absurd (hlast.symm.trans hb) nofun
  | via hb _ ih =>
    obtain ⟨id, b, hid, hb', h⟩ := h.exists_step
    obtain rfl := binding.inj hid
    obtain rfl := Option.some.inj (hb.symm.trans hb')
    exact ih h hlast

end RunsInCircle

/-- A chain that passes a binding twice runs in a circle. -/
theorem Reaches.nodup_or_runsInCircle (h : root.Reaches bindings passed next) :
    passed.Nodup ∨ root.RunsInCircle bindings := by
  induction h with
  | here => exact .inl List.nodup_nil
  | @via id b passed _ hb h ih =>
    rcases ih with hnodup | hcircle
    · by_cases hmem : b ∈ passed
      · -- Wherever `b` is passed, the way goes on at its root.
        obtain ⟨way, hne, hway⟩ := h.exists_of_mem hmem
        exact .inr (.via hb ⟨[], b.root, way, .here _, hne, hway⟩)
      · exact .inl (List.nodup_cons.mpr ⟨hmem, hnodup⟩)
    · exact .inr (.via hb hcircle)

/-- By the pigeonhole principle, a chain that passes more bindings than there are runs in a
circle. -/
theorem Reaches.runsInCircle_of_length_lt (h : root.Reaches bindings passed next)
    (hlength : bindings.length < passed.length) : root.RunsInCircle bindings := by
  refine h.nodup_or_runsInCircle.resolve_left fun hnodup => ?_
  exact absurd (List.subperm_of_subset hnodup h.subset).length_le (Nat.not_le_of_lt hlength)

/-- A chain with an end passes no more bindings than there are. -/
theorem Reaches.length_le (h : root.Reaches bindings passed last) (hlast : last.IsEnd bindings) :
    passed.length ≤ bindings.length :=
  Nat.le_of_not_lt fun hlength => (h.runsInCircle_of_length_lt hlength).not_reaches hlast h

/-- A chain can be followed for any number of steps, or it ends. -/
theorem exists_reaches (bindings : List Binding) (steps : Nat) (root : Root) :
    (∃ passed last, root.Reaches bindings passed last ∧ last.IsEnd bindings) ∨
      ∃ passed next, root.Reaches bindings passed next ∧ passed.length = steps := by
  induction steps generalizing root with
  | zero => exact .inr ⟨[], root, .here root, rfl⟩
  | succ steps ih =>
    cases root with
    | row => exact .inl ⟨[], .row, .here _, trivial⟩
    | binding id =>
      cases hb : bindings[id]? with
      | none => exact .inl ⟨[], .binding id, .here _, hb⟩
      | some b =>
        obtain ⟨passed, last, h, hlast⟩ | ⟨passed, next, h, hlength⟩ := ih b.root
        · exact .inl ⟨b :: passed, last, .via hb h, hlast⟩
        · exact .inr ⟨b :: passed, next, .via hb h, congrArg (· + 1) hlength⟩

/-- **A chain ends or runs in a circle.** -/
theorem reaches_end_or_runsInCircle (bindings : List Binding) (root : Root) :
    (∃ passed last, root.Reaches bindings passed last ∧ last.IsEnd bindings) ∨
      root.RunsInCircle bindings := by
  refine (exists_reaches bindings (bindings.length + 1) root).imp_right ?_
  rintro ⟨passed, next, h, hlength⟩
  exact h.runsInCircle_of_length_lt (hlength ▸ Nat.lt_succ_self _)

/-- A chain in which every binding starts at the row or at an earlier one ends at the row. -/
theorem exists_reaches_row {n : Nat} (hn : n ≤ bindings.length) (hroot : root.IsWithin n)
    (h : ∀ passed id b, root.Reaches bindings passed (.binding id) → bindings[id]? = some b →
      b.root.IsWithin id) : ∃ passed, root.Reaches bindings passed .row := by
  induction n using Nat.strongRecOn generalizing root with
  | _ n ih =>
    cases root with
    | row => exact ⟨[], .here _⟩
    | binding id =>
      have hid : id < bindings.length := Nat.lt_of_lt_of_le hroot hn
      have hb : bindings[id]? = some bindings[id] := List.getElem?_eq_getElem hid
      obtain ⟨passed, hpassed⟩ := ih id hroot (Nat.le_of_lt hid) (h [] id _ (.here _) hb)
        fun passed id' b hreach => h (_ :: passed) id' b (.via hb hreach)
      exact ⟨_ :: passed, .via hb hpassed⟩

end Root

/-! ### Qualification -/

section

variable {bindings passed : List Binding} {root next : Root}

/-- The paths of the bindings that are passed stand before the given one, the outermost first. -/
def qualifiedPath (passed : List Binding) (path : List String) : List String :=
  passed.reverse.flatMap Binding.path ++ path

theorem qualifiedPath_cons (b : Binding) (passed : List Binding) (path : List String) :
    qualifiedPath (b :: passed) path = qualifiedPath passed (b.path ++ path) := by
  simp [qualifiedPath]

/-- Qualification follows the chain. -/
theorem qualifyWithin_add (h : root.Reaches bindings passed next) (steps : Nat)
    (path : List String) :
    qualifyWithin bindings (passed.length + steps) root path =
      qualifyWithin bindings steps next (qualifiedPath passed path) := by
  induction h generalizing path with
  | here => rw [List.length_nil, Nat.zero_add]; rfl
  | @via id b passed _ hb _ ih =>
    rw [List.length_cons, Nat.add_right_comm, qualifyWithin, hb, qualifiedPath_cons]
    exact ih _

/-- Too few steps are reported as a circle, whether or not there is one. -/
theorem qualifyWithin_of_le (h : root.Reaches bindings passed next) {steps : Nat}
    (hsteps : steps ≤ passed.length) (path : List String) :
    qualifyWithin bindings steps root path = .error (.invariant .bindingCycle) := by
  induction h generalizing steps path with
  | here => rw [Nat.le_zero.mp hsteps]; rfl
  | @via id b passed _ hb _ ih =>
    cases steps with
    | zero => rfl
    | succ steps =>
      rw [qualifyWithin, hb]
      exact ih (Nat.le_of_succ_le_succ hsteps) _

theorem qualifyWithin_of_runsInCircle (h : root.RunsInCircle bindings) (steps : Nat)
    (path : List String) :
    qualifyWithin bindings steps root path = .error (.invariant .bindingCycle) := by
  induction steps generalizing root path with
  | zero => rfl
  | succ steps ih =>
    obtain ⟨id, b, rfl, hb, h⟩ := h.exists_step
    rw [qualifyWithin, hb]
    exact ih h _

/-- Qualification needs one step more than there are bindings on the way to the row. -/
theorem qualifyWithin_eq_ok_iff_of_reaches (h : root.Reaches bindings passed .row) {steps : Nat}
    {path path' : List String} :
    qualifyWithin bindings steps root path = .ok path' ↔
      passed.length < steps ∧ path' = qualifiedPath passed path := by
  rcases Nat.lt_or_ge passed.length steps with hsteps | hsteps
  · obtain ⟨more, rfl⟩ := Nat.exists_eq_add_of_lt hsteps
    rw [Nat.add_assoc, qualifyWithin_add h, qualifyWithin, Except.ok.injEq, eq_comm,
      and_iff_right (Nat.lt_add_of_pos_right (Nat.succ_pos more))]
  · rw [qualifyWithin_of_le h hsteps]
    exact iff_of_false nofun fun hlt => Nat.not_lt_of_le hsteps hlt.1

theorem qualify_of_reaches_row (h : root.Reaches bindings passed .row) (path : List String) :
    qualify bindings root path = .ok (qualifiedPath passed path) :=
  (qualifyWithin_eq_ok_iff_of_reaches h).mpr ⟨Nat.lt_succ_of_le (h.length_le trivial), rfl⟩

theorem qualify_of_reaches_unknown {id : BindingId} (h : root.Reaches bindings passed (.binding id))
    (hid : bindings[id]? = none) (path : List String) :
    qualify bindings root path = .error (.invariant (.unknownBinding id)) := by
  obtain ⟨more, hmore⟩ := Nat.exists_eq_add_of_le (h.length_le hid)
  rw [qualify, hmore, Nat.add_assoc, qualifyWithin_add h, qualifyWithin, hid]

theorem qualify_of_runsInCircle (h : root.RunsInCircle bindings) (path : List String) :
    qualify bindings root path = .error (.invariant .bindingCycle) :=
  qualifyWithin_of_runsInCircle h _ path

end

/-- What qualification yields tells how the chain goes on. -/
theorem qualify_cases (bindings : List Binding) (root : Root) (path : List String) :
    (∃ passed, root.Reaches bindings passed .row ∧
      qualify bindings root path = .ok (qualifiedPath passed path)) ∨
    (∃ passed id, root.Reaches bindings passed (.binding id) ∧ bindings[id]? = none ∧
      qualify bindings root path = .error (.invariant (.unknownBinding id))) ∨
    root.RunsInCircle bindings ∧
      qualify bindings root path = .error (.invariant .bindingCycle) := by
  obtain ⟨passed, last, h, hlast⟩ | h := root.reaches_end_or_runsInCircle bindings
  · cases last with
    | row => exact .inl ⟨passed, h, qualify_of_reaches_row h path⟩
    | binding id =>
      have he := qualify_of_reaches_unknown h hlast path
      exact .inr (.inl ⟨passed, id, h, hlast, he⟩)
  · exact .inr (.inr ⟨h, qualify_of_runsInCircle h path⟩)

section

variable {bindings : List Binding} {root : Root} {path : List String}

theorem qualify_eq_ok_iff {path' : List String} :
    qualify bindings root path = .ok path' ↔
      ∃ passed, root.Reaches bindings passed .row ∧ path' = qualifiedPath passed path := by
  constructor
  · intro hq
    obtain ⟨passed, h, hok⟩ | ⟨_, _, _, _, he⟩ | ⟨_, he⟩ := qualify_cases bindings root path
    · exact ⟨passed, h, Except.ok.inj (hq.symm.trans hok)⟩
    · exact absurd (hq.symm.trans he) nofun
    · exact absurd (hq.symm.trans he) nofun
  · rintro ⟨passed, h, rfl⟩
    exact qualify_of_reaches_row h path

theorem qualify_eq_unknownBinding_iff {id : BindingId} :
    qualify bindings root path = .error (.invariant (.unknownBinding id)) ↔
      ∃ passed, root.Reaches bindings passed (.binding id) ∧ bindings[id]? = none := by
  constructor
  · intro hq
    obtain ⟨_, _, hok⟩ | ⟨passed, id', h, hid, he⟩ | ⟨_, he⟩ := qualify_cases bindings root path
    · exact absurd (hq.symm.trans hok) nofun
    · have hsame := hq.symm.trans he
      simp only [Except.error.injEq, Error.invariant.injEq, Invariant.unknownBinding.injEq] at hsame
      exact ⟨passed, hsame ▸ h, hsame ▸ hid⟩
    · exact absurd (hq.symm.trans he) (by simp)
  · rintro ⟨passed, h, hid⟩
    exact qualify_of_reaches_unknown h hid path

theorem qualify_eq_bindingCycle_iff :
    qualify bindings root path = .error (.invariant .bindingCycle) ↔
      root.RunsInCircle bindings := by
  refine ⟨fun hq => ?_, fun h => qualify_of_runsInCircle h path⟩
  obtain ⟨_, _, hok⟩ | ⟨_, _, _, _, he⟩ | ⟨h, _⟩ := qualify_cases bindings root path
  · exact absurd (hq.symm.trans hok) nofun
  · exact absurd (hq.symm.trans he) (by simp)
  · exact h

end

/-- **Qualification follows chains of bindings**, whatever the bindings are. A chain that leads to
the row yields the paths of the bindings that it passes, the outermost first, before the given one;
this takes one step more than it passes bindings, and it passes no more than there are. A chain that
leads to a binding that was never made, or that runs in a circle, breaks an invariant; there are no
other chains. If every binding on the way starts at the row or at an earlier one, the chain leads to
the row. -/
theorem qualify_exact (bindings : List Binding) (root : Root) (path : List String) :
    (∀ path', qualify bindings root path = .ok path' ↔
      ∃ passed, root.Reaches bindings passed .row ∧
        path' = passed.reverse.flatMap Binding.path ++ path) ∧
    (∀ passed, root.Reaches bindings passed .row → passed.length ≤ bindings.length ∧
      ∀ steps path', qualifyWithin bindings steps root path = .ok path' ↔
        passed.length < steps ∧ path' = passed.reverse.flatMap Binding.path ++ path) ∧
    (∀ id, qualify bindings root path = .error (.invariant (.unknownBinding id)) ↔
      ∃ passed, root.Reaches bindings passed (.binding id) ∧ bindings[id]? = none) ∧
    (qualify bindings root path = .error (.invariant .bindingCycle) ↔
      root.RunsInCircle bindings) ∧
    ((∃ passed, root.Reaches bindings passed .row) ∨
      (∃ passed id, root.Reaches bindings passed (.binding id) ∧ bindings[id]? = none) ∨
      root.RunsInCircle bindings) ∧
    (root.IsWithin bindings.length →
      (∀ passed id b, root.Reaches bindings passed (.binding id) → bindings[id]? = some b →
        b.root.IsWithin id) →
      ∃ passed, root.Reaches bindings passed .row ∧
        qualify bindings root path = .ok (passed.reverse.flatMap Binding.path ++ path)) := by
  refine ⟨fun path' => qualify_eq_ok_iff, fun passed h => ⟨h.length_le trivial, fun steps path' =>
    qualifyWithin_eq_ok_iff_of_reaches h⟩, fun id => qualify_eq_unknownBinding_iff,
    qualify_eq_bindingCycle_iff, ?_, fun hroot hearlier => ?_⟩
  · exact (qualify_cases bindings root path).imp (fun ⟨passed, h, _⟩ => ⟨passed, h⟩) <|
      Or.imp (fun ⟨passed, id, h, hid, _⟩ => ⟨passed, id, h, hid⟩) And.left
  · obtain ⟨passed, h⟩ := Root.exists_reaches_row (Nat.le_refl _) hroot hearlier
    exact ⟨passed, h, qualify_of_reaches_row h path⟩

/-- A chain through all of three bindings, each of which starts at the one before it. -/
theorem qualify_exact_rooms :
    let bindings : List Binding :=
      [⟨.row, ["classes"]⟩, ⟨.binding 0, []⟩, ⟨.binding 1, ["room"]⟩]
    (Root.binding 2).Reaches bindings bindings.reverse .row ∧
      bindings.reverse.length ≤ bindings.length ∧
      (Root.binding 2).IsWithin bindings.length ∧
      (∀ passed id b, (Root.binding 2).Reaches bindings passed (.binding id) →
        bindings[id]? = some b → b.root.IsWithin id) ∧
      ∃ passed, (Root.binding 2).Reaches bindings passed .row ∧
        qualify bindings (.binding 2) ["title"] =
          .ok (passed.reverse.flatMap Binding.path ++ ["title"]) := by
  intro bindings
  have hchain : (Root.binding 2).Reaches bindings bindings.reverse .row :=
    .via rfl (.via rfl (.via rfl (.here _)))
  have hroot : (Root.binding 2).IsWithin bindings.length := Nat.lt_succ_self 2
  have hearlier : ∀ passed id b, (Root.binding 2).Reaches bindings passed (.binding id) →
      bindings[id]? = some b → b.root.IsWithin id := by
    rintro - (_ | _ | _ | id) b - hb
    · obtain rfl := Option.some.inj hb
      trivial
    · obtain rfl := Option.some.inj hb
      exact Nat.zero_lt_one
    · obtain rfl := Option.some.inj hb
      exact Nat.lt_succ_self 1
    · cases hb
  obtain ⟨-, hlength, -, -, -, hends⟩ := qualify_exact bindings (.binding 2) ["title"]
  exact ⟨hchain, (hlength _ hchain).1, hroot, hearlier, hends hroot hearlier⟩

end NestedQuery
