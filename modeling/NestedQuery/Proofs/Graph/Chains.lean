import Mathlib.Order.Nat
import NestedQuery.Proofs.Graph.Plan
import NestedQuery.Proofs.Graph.Step

/-!
# Chains of rows

A row carries a chain at a level if none of its row numbers from the root down to the level is
null (`Plan.Carries`); the chain is these row numbers. `Plan.chain?` computes it, level after
level, in the order in which `Graph.pushLevels` visits them.

`chain?_eq_some_iff` says that `Plan.chain?` decides `Plan.Carries`.
-/

namespace NestedQuery

/-- The chain above a level, from the chains at the levels before: a root level has none above
it. -/
def Level.parentChain? (level : Level) (chains : List (Option Chain)) : Option Chain :=
  match level.parent? with
  | none => some []
  | some i => (chains[i]?).join

theorem Level.parentChain?_root {level : Level} (h : level.parent? = none)
    (chains : List (Option Chain)) : level.parentChain? chains = some [] := by
  rw [parentChain?, h]

theorem Level.parentChain?_below {level : Level} {i : Nat} (h : level.parent? = some i)
    (chains : List (Option Chain)) : level.parentChain? chains = (chains[i]?).join := by
  rw [parentChain?, h]

namespace Plan

/-! ### The chain of a row at a level -/

/-- The row has the chain `k` at the level `i`: none of its row numbers from the root down to the
level is null, and they make up `k`. -/
inductive Carries (p : Plan) (r : Row) : Nat → Chain → Prop
  | root {i : Nat} {level : Level} {id : Int64} :
      p.levels[i]? = some level → level.parent? = none → p.numberAt? r level.rowId = some id →
      Carries p r i [id]
  | child {i j : Nat} {level : Level} {k : Chain} {id : Int64} :
      p.levels[i]? = some level → level.parent? = some j → Carries p r j k →
      p.numberAt? r level.rowId = some id → Carries p r i (k ++ [id])

/-- The chain at a level, from the chains at the levels before. -/
def nextChain? (p : Plan) (r : Row) (chains : List (Option Chain)) (level : Level) :
    Option Chain :=
  (level.parentChain? chains).bind fun k =>
    (p.numberAt? r level.rowId).map fun id => k ++ [id]

/-- The chains at the first `n` levels. -/
def chains (p : Plan) (r : Row) (n : Nat) : List (Option Chain) :=
  (p.levels.take n).foldl (fun chains level => chains ++ [p.nextChain? r chains level]) []

/-- The chain of a row at a level, if it has one there. -/
def chain? (p : Plan) (r : Row) (i : Nat) : Option Chain :=
  (p.chains r p.levels.length)[i]?.join

theorem chains_succ {p : Plan} (r : Row) {n : Nat} {level : Level}
    (h : p.levels[n]? = some level) :
    p.chains r (n + 1) = p.chains r n ++ [p.nextChain? r (p.chains r n) level] := by
  rw [chains, List.take_add_one, h, Option.toList_some, List.foldl_append]
  rfl

theorem chains_length (p : Plan) (r : Row) {n : Nat} (hn : n ≤ p.levels.length) :
    (p.chains r n).length = n := by
  induction n with
  | zero => rfl
  | succ n ih =>
    rw [chains_succ r (List.getElem?_eq_getElem hn), List.length_append,
      ih (Nat.le_of_succ_le hn), List.length_singleton]

/-- Further levels do not change the chains at the levels before. -/
theorem chains_getElem? (p : Plan) (r : Row) {i n : Nat} (hi : i < n)
    (hn : n ≤ p.levels.length) : (p.chains r n)[i]? = (p.chains r (i + 1))[i]? := by
  induction n with
  | zero => omega
  | succ n ih =>
    rcases Nat.lt_succ_iff_lt_or_eq.mp hi with hlt | rfl
    · rw [← ih hlt (Nat.le_of_succ_le hn), chains_succ r (List.getElem?_eq_getElem hn),
        List.getElem?_append_left]
      rw [chains_length p r (Nat.le_of_succ_le hn)]
      exact hlt
    · rfl

theorem chains_getElem?_join (p : Plan) (r : Row) {i n : Nat} (hi : i < n)
    (hn : n ≤ p.levels.length) : (p.chains r n)[i]?.join = p.chain? r i := by
  rw [chain?, chains_getElem? p r hi hn, chains_getElem? p r (Nat.lt_of_lt_of_le hi hn) le_rfl]

/-- The chain at a level is its parent's with the row number of the level. -/
theorem chain?_eq_nextChain? {p : Plan} (r : Row) {i : Nat} {level : Level}
    (h : p.levels[i]? = some level) : p.chain? r i = p.nextChain? r (p.chains r i) level := by
  obtain ⟨hi, -⟩ := List.getElem?_eq_some_iff.mp h
  rw [← chains_getElem?_join p r (Nat.lt_succ_self i) hi, chains_succ r h,
    List.getElem?_append_right (chains_length p r hi.le).le, chains_length p r hi.le,
    Nat.sub_self]
  rfl

/-- The chains at one more level. -/
theorem chains_succ_eq_chain? {p : Plan} (r : Row) {n : Nat} {level : Level}
    (h : p.levels[n]? = some level) : p.chains r (n + 1) = p.chains r n ++ [p.chain? r n] := by
  rw [chains_succ r h, chain?_eq_nextChain? r h]

theorem chain?_root {p : Plan} (r : Row) {i : Nat} {level : Level}
    (h : p.levels[i]? = some level) (hroot : level.parent? = none) :
    p.chain? r i = (p.numberAt? r level.rowId).map fun id => [id] := by
  rw [chain?_eq_nextChain? r h, nextChain?, level.parentChain?_root hroot, Option.bind_some]
  rfl

theorem chain?_below {p : Plan} (hp : p.WellFormed) (r : Row) {i j : Nat} {level : Level}
    (h : p.levels[i]? = some level) (hparent : level.parent? = some j) :
    p.chain? r i = (p.chain? r j).bind fun k =>
      (p.numberAt? r level.rowId).map fun id => k ++ [id] := by
  have hi := (List.getElem?_eq_some_iff.mp h).1
  rw [chain?_eq_nextChain? r h, nextChain?, level.parentChain?_below hparent,
    chains_getElem?_join p r (hp.parent_lt i level h j hparent) hi.le]

theorem chain?_eq_none_of_le {p : Plan} (r : Row) {i : Nat} (hi : p.levels.length ≤ i) :
    p.chain? r i = none := by
  rw [chain?, List.getElem?_eq_none]
  · rfl
  · rw [chains_length p r le_rfl]
    exact hi

/-- **The computation decides the relation.** -/
theorem chain?_eq_some_iff {p : Plan} (hp : p.WellFormed) {r : Row} {i : Nat} {k : Chain} :
    p.chain? r i = some k ↔ p.Carries r i k := by
  constructor
  · intro h
    -- The parent of a level is an earlier one.
    induction i using Nat.strong_induction_on generalizing k with
    | _ i ih =>
    rcases Nat.lt_or_ge i p.levels.length with hi | hi
    · have hlevel := List.getElem?_eq_getElem hi
      cases hparent : p.levels[i].parent? with
      | none =>
        rw [chain?_root r hlevel hparent, Option.map_eq_some_iff] at h
        obtain ⟨id, hid, rfl⟩ := h
        exact .root hlevel hparent hid
      | some j =>
        rw [chain?_below hp r hlevel hparent, Option.bind_eq_some_iff] at h
        obtain ⟨above, habove, h⟩ := h
        obtain ⟨id, hid, rfl⟩ := Option.map_eq_some_iff.mp h
        exact .child hlevel hparent (ih j (hp.parent_lt i _ hlevel j hparent) habove) hid
    · rw [chain?_eq_none_of_le r hi] at h
      exact absurd h (by simp)
  · intro h
    induction h with
    | root hlevel hparent hid =>
      rw [chain?_root r hlevel hparent, hid, Option.map_some]
    | child hlevel hparent _ hid ih =>
      rw [chain?_below hp r hlevel hparent, ih, Option.bind_some, hid, Option.map_some]

end Plan

end NestedQuery
