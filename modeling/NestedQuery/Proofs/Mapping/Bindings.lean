import NestedQuery.Proofs.Accumulator.Roles
import NestedQuery.Proofs.Expr.Scoping
import NestedQuery.Proofs.Mapping.Qualification

/-!
# Chains of bindings

A list of bindings is grounded if each of them starts at the row or at an earlier one. Then a chain
that starts at a binding of the list leads to the row, and so `qualify` always yields a path
(`exists_qualify_eq_ok`): no binding is unknown, and none are in a circle. Resolving leaves whose
chains start at bindings of the list fails in ordinary ways only (`Resolver.resolveTree_isOrdinary`).
-/

namespace NestedQuery

/-- Every binding starts at the row or at an earlier one. -/
def Grounded (bindings : List Binding) : Prop :=
  ∀ (i : Nat) (b : Binding), bindings[i]? = some b → b.root.IsWithin i

namespace Grounded

variable {bindings : List Binding}

theorem nil : Grounded [] :=
  nofun

theorem concat (h : Grounded bindings) {b : Binding} (hb : b.root.IsWithin bindings.length) :
    Grounded (bindings ++ [b]) := by
  intro i b' hb'
  rcases Nat.lt_or_ge i bindings.length with hi | hi
  · rw [List.getElem?_append_left hi] at hb'
    exact h i b' hb'
  · rw [List.getElem?_append_right hi] at hb'
    obtain ⟨-, rfl⟩ := List.getElem?_eq_some_iff.mp hb'
    rw [List.getElem_singleton]
    exact hb.mono hi

/-- **Every path leads to the row.** -/
theorem exists_qualify_eq_ok (h : Grounded bindings) {root : Root}
    (hroot : root.IsWithin bindings.length) (path : List String) :
    ∃ path', qualify bindings root path = .ok path' := by
  obtain ⟨passed, hpassed⟩ :=
    Root.exists_reaches_row (Nat.le_refl _) hroot fun _ id b _ hb => h id b hb
  exact ⟨_, qualify_of_reaches_row hpassed path⟩

end Grounded

/-! ### Resolution -/

/-- Where the chain of a leaf starts. -/
def Symbol.root? : Symbol → Option Root
  | .param _ => none
  | .column root .. => some root

/-- All chains in the accumulator start at the row or at one of the bindings. -/
def Accumulator.IsRooted (bindings : List Binding) (v : Accumulator Symbol) : Prop :=
  ∀ a ∈ v.leaves, ∀ root ∈ a.root?, root.IsWithin bindings.length

namespace Resolver

variable {r : Resolver} {unbound : String → Prop}

theorem columnAt_isOrdinary (path : List String) :
    Result.IsOrdinary unbound (r.columnAt path) := by
  unfold columnAt
  dsimp only
  split
  · exact Result.isOrdinary_ok _
  · exact Result.isOrdinary_ok _
  · exact Result.isOrdinary_error (Error.isOrdinary_unsupported _ _)
  · exact Result.isOrdinary_error (Error.isOrdinary_unsupported _ _)
  · exact Result.isOrdinary_error (Error.isOrdinary_unsupported _ _)

theorem resolve_isOrdinary (h : Grounded r.bindings) {a : Symbol}
    (ha : ∀ root ∈ a.root?, root.IsWithin r.bindings.length) :
    Result.IsOrdinary unbound (r.resolve a) := by
  cases a with
  | param id => exact Result.isOrdinary_ok _
  | column root path into function =>
    obtain ⟨path', hpath'⟩ := h.exists_qualify_eq_ok (ha root rfl) path
    rw [resolve, hpath']
    exact (columnAt_isOrdinary path').bind_pure _

/-- **Resolving** leaves whose chains start at known bindings breaks no invariant. -/
theorem resolveTree_isOrdinary (h : Grounded r.bindings) {v : Accumulator Symbol}
    (hv : v.IsRooted r.bindings) : Result.IsOrdinary unbound (r.resolveTree v) := by
  intro e he
  obtain ⟨x, hx, hresolve⟩ := Accumulator.exists_of_traverse_eq_error false v he
  have hleaf : x.1 ∈ v.leaves := by
    rw [← Accumulator.map_fst_roles false v]
    exact List.mem_map_of_mem hx
  exact resolve_isOrdinary h (hv x.1 hleaf) e hresolve

end Resolver

end NestedQuery
