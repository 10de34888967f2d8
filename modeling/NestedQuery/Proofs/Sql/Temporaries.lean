import Mathlib.Data.List.Nodup
import NestedQuery.Proofs.Select.Draft
import NestedQuery.Proofs.Sql.Reads

/-!
# Temporary names

A statement uses a temporary name where its text says `(*) FROM "table" AS "name"`, which is how a
table is counted for the row numbers of its source. `Fragment.temporaries` lists these names from
left to right.

Temporary names are numbered, and the count of names drawn so far is the number of the last one.
`Fragment.Draws` says that a part which was written while the count went from `n` to `n'` uses the
names numbered in between, and that this is a fixed number of names for each table it reads from.
-/

namespace NestedQuery

/-! ### Names by number -/

/-- The temporary name with a number. -/
def temporaryName (i : Nat) : String :=
  s!"rs_tmp_{i}"

theorem temporaryName_injective {i j : Nat} (h : temporaryName i = temporaryName j) : i = j :=
  eq_of_append_toString "rs_tmp_" h

/-- The names that are drawn while the count goes from `n` to `n'`. -/
def temporaryNames (n n' : Nat) : List String :=
  (List.range' (n + 1) (n' - n)).map temporaryName

theorem temporaryNames_self (n : Nat) : temporaryNames n n = [] := by
  rw [temporaryNames, Nat.sub_self, List.range'_zero, List.map_nil]

theorem temporaryNames_succ (n : Nat) : temporaryNames n (n + 1) = [temporaryName (n + 1)] := by
  rw [temporaryNames, Nat.add_sub_cancel_left, List.range'_one, List.map_singleton]

theorem temporaryNames_append {n n₁ n₂ : Nat} (h : n ≤ n₁) (h' : n₁ ≤ n₂) :
    temporaryNames n n₁ ++ temporaryNames n₁ n₂ = temporaryNames n n₂ := by
  have hsplit : List.range' (n + 1) (n₁ - n) ++ List.range' (n₁ + 1) (n₂ - n₁) =
      List.range' (n + 1) (n₂ - n) := by
    rw [show n₁ + 1 = n + 1 + 1 * (n₁ - n) by omega, List.range'_append,
      show n₁ - n + (n₂ - n₁) = n₂ - n by omega]
  rw [temporaryNames, temporaryNames, ← List.map_append, hsplit, temporaryNames]

theorem nodup_temporaryNames (n n' : Nat) : (temporaryNames n n').Nodup :=
  List.Nodup.map (fun _ _ => temporaryName_injective) List.nodup_range'

/-- How many names the source of a table draws. -/
def Engine.drawsPerTable (e : Engine) : Nat :=
  match e.rowIds with
  | .emulated _ => 1
  | .window | .native _ => 0

/-! ### Names in a statement -/

namespace Fragment

/-- The temporary name whose introduction the fragment starts with, from the star of the count
on. -/
def temporary? : Fragment → Option String
  | .token .star :: .token .closeParen :: .token .from_ :: .ident _ :: .token .as_ :: .ident name
    :: _ => some name
  | _ => none

/-- The temporary names that a fragment introduces, left to right. -/
def temporaries : Fragment → List String
  | [] => []
  | c :: rest => (temporary? (c :: rest)).toList ++ temporaries rest

/-- Only a star can begin the introduction of a name. -/
theorem temporary?_cons {c : Chunk} (hc : c ≠ .token .star) (rest : Fragment) :
    temporary? (c :: rest) = none := by
  unfold temporary?
  split
  · rename_i heq
    exact absurd (List.cons.inj heq).1 hc
  · rfl

theorem temporaries_append_of_isStarless {f : Fragment} (hf : IsStarless f) (g : Fragment) :
    temporaries (f ++ g) = temporaries g := by
  induction f with
  | nil => rfl
  | cons c f ih =>
    obtain ⟨hc, hf⟩ := List.forall_mem_cons.mp hf
    rw [List.cons_append, temporaries, temporary?_cons hc, Option.toList_none, List.nil_append,
      ih hf]

/-- Written while the count of names went from `n` to `n'`, the fragment introduces the names in
between wherever it stands, which are `k` for each table that it reads from. -/
structure Draws (k n : Nat) (f : Fragment) (n' : Nat) : Prop where
  /-- It introduces the names in between. -/
  temporaries (g : Fragment) :
    temporaries (f ++ g) = temporaryNames n n' ++ Fragment.temporaries g
  /-- It reads from some tables, each of which draws `k` names. -/
  count : ∃ ns, Reads f ns ∧ n' = n + k * ns.length

namespace Draws

variable {k n n₁ n₂ : Nat} {f g : Fragment}

theorem le (h : Draws k n f n₁) : n ≤ n₁ := by
  obtain ⟨ns, -, rfl⟩ := h.count
  exact Nat.le_add_right ..

theorem temporaries_eq (h : Draws k n f n₁) : Fragment.temporaries f = temporaryNames n n₁ := by
  have htemporaries := h.temporaries []
  rwa [List.append_nil, Fragment.temporaries, List.append_nil] at htemporaries

theorem count_eq (h : Draws k n f n₁) : n₁ = n + k * (sourceNames f).length := by
  obtain ⟨ns, hns, rfl⟩ := h.count
  rw [hns.sourceNames_eq]

theorem append (hf : Draws k n f n₁) (hg : Draws k n₁ g n₂) : Draws k n (f ++ g) n₂ where
  temporaries rest := by
    rw [List.append_assoc, hf.temporaries, hg.temporaries, ← List.append_assoc,
      temporaryNames_append hf.le hg.le]
  count := by
    obtain ⟨ns, hns, rfl⟩ := hf.count
    obtain ⟨ms, hms, rfl⟩ := hg.count
    exact ⟨ns ++ ms, hns.append hms, by rw [List.length_append, Nat.mul_add, Nat.add_assoc]⟩

end Draws

theorem draws_of_isStarless {f : Fragment} (hf : IsStarless f) (k n : Nat) : Draws k n f n where
  temporaries g := by
    rw [temporaries_append_of_isStarless hf, temporaryNames_self, List.nil_append]
  count := ⟨[], reads_of_isStarless hf, rfl⟩

end Fragment

open Fragment

/-- The source of a table introduces the name that it draws, if any. -/
theorem Engine.draws_tableSource (e : Engine) (table name : String) (n : Nat) :
    Draws e.drawsPerTable n ((e.tableSource table name).run n).1
      ((e.tableSource table name).run n).2 where
  temporaries g := by
    unfold tableSource rowNumbers
    cases e.rowIds with
    | window => exact (temporaryNames_self n).symm ▸ rfl
    | native column => exact (temporaryNames_self n).symm ▸ rfl
    | emulated key => exact (temporaryNames_succ n).symm ▸ rfl
  count := by
    refine ⟨[name], e.reads_tableSource table name n, ?_⟩
    unfold drawsPerTable tableSource rowNumbers
    cases e.rowIds <;> rfl

end NestedQuery
