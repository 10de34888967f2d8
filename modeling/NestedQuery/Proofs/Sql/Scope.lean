import NestedQuery.Proofs.Sql.Closed

/-!
# Query levels and their names

A statement is a tree: what stands between parentheses is a group. A group that starts with
`SELECT` is a query of its own, and the chunks outside such groups make up a query level. The
`FROM` and the joins of a level introduce names; `references` lists the columns that a level reads,
`conditions` what stands behind each `ON` with the names introduced before it, and `exports` the
names that a level gives to its own columns. `InScope` says that every name is used where it is
introduced.

The tree of a fragment is read off chunk by chunk (`nest`). `Nests f ns` says which nodes a fragment
adds to those of any statement that it stands in; it is closed under the ways fragments are put
together.
-/

namespace NestedQuery

/-! ### Trees -/

/-- A chunk, or what stands between parentheses. -/
inductive SqlNode where
  /-- A chunk. -/
  | chunk (c : Chunk)
  /-- What stands between parentheses. -/
  | group (nodes : List SqlNode)

/-- Whether a node is a token. -/
def SqlNode.isToken (t : Token) : SqlNode → Bool
  | .chunk (.token u) => t == u
  | _ => false

/-- Reads chunks, where `done` has been read since the last open parenthesis, and `outer` before
each of the open ones. There is no result if parentheses do not match. -/
def nest (done : List SqlNode) (outer : List (List SqlNode)) : List Chunk → Option (List SqlNode)
  | [] => if outer.isEmpty then some done else none
  | .token .openParen :: rest => nest [] (done :: outer) rest
  | .token .closeParen :: rest =>
    match outer with
    | [] => none
    | before :: outer => nest (before ++ [.group done]) outer rest
  | c :: rest => nest (done ++ [.chunk c]) outer rest

/-- The tree of a fragment. -/
def Fragment.nodes (f : Fragment) : Option (List SqlNode) :=
  nest [] [] (expandAll f)

/-! ### What a level reads and introduces -/

/-- A column of a table, as it is written. -/
structure Reference where
  /-- The name of the table. -/
  table : String
  /-- The column. -/
  column : String
  deriving Repr, DecidableEq

/-- The reference that nodes start with. -/
def reference? : List SqlNode → Option Reference
  | .chunk (.ident table) :: .chunk (.token .dot) :: .chunk (.ident column) :: _ =>
    some ⟨table, column⟩
  | _ => none

/-- Whether nodes are those of a query. -/
def isQuery (ns : List SqlNode) : Bool :=
  ns.head?.any (SqlNode.isToken .select)

mutual

/-- The references inside a node, unless it is a query. -/
def SqlNode.references : SqlNode → List Reference
  | .chunk _ => []
  | .group ns => if isQuery ns then [] else references ns

/-- The references of a level, left to right. -/
def references : List SqlNode → List Reference
  | [] => []
  | n :: rest => (reference? (n :: rest)).toList ++ n.references ++ references rest

end

/-- A name that stands for a table. -/
structure Introduction where
  /-- The name. -/
  name : String
  /-- The query whose rows it stands for; empty for a stored table. -/
  rows : List SqlNode

/-- The name that nodes start with introducing. -/
def introduction? : List SqlNode → Option Introduction
  | .chunk (.token t) :: .group rows :: .chunk (.token .as_) :: .chunk (.ident name) :: _ =>
    if t = .from_ ∨ t = .join then some ⟨name, rows⟩ else none
  | .chunk (.token t) :: .chunk (.ident _) :: .chunk (.token .as_) :: .chunk (.ident name) :: _ =>
    if t = .from_ ∨ t = .join then some ⟨name, []⟩ else none
  | .chunk (.token t) :: .chunk (.ident table) :: _ =>
    if t = .from_ ∨ t = .join then some ⟨table, []⟩ else none
  | _ => none

/-- The names that a level introduces, left to right. -/
def introductions : List SqlNode → List Introduction
  | [] => []
  | n :: rest => (introduction? (n :: rest)).toList ++ introductions rest

/-- The names alone. -/
def introduced (ns : List SqlNode) : List String :=
  (introductions ns).map Introduction.name

/-- Whether a token starts a clause, so that it ends the one before. -/
def Token.startsClause (t : Token) : Bool :=
  [.select, .from_, .inner, .left, .join, .on_, .where_, .group, .order].contains t

/-- Whether a node starts a clause. -/
def SqlNode.startsClause : SqlNode → Bool
  | .chunk (.token t) => t.startsClause
  | _ => false

/-- The join conditions of a level, each with the names introduced before it; `before` are those
introduced before the nodes. -/
def conditions (before : List String) : List SqlNode → List (List String × List SqlNode)
  | [] => []
  | n :: rest =>
    (if n.isToken .on_ then [(before, rest.takeWhile fun m => !m.startsClause)] else [])
      ++ conditions (before ++ (introduction? (n :: rest)).toList.map Introduction.name) rest

/-- The name that nodes start with giving. -/
def export? : List SqlNode → Option String
  | .chunk (.token .as_) :: .chunk (.ident name) :: _ => some name
  | _ => none

/-- The names given in a list of columns. -/
def exportsIn : List SqlNode → List String
  | [] => []
  | n :: rest => (export? (n :: rest)).toList ++ exportsIn rest

/-- The names of the columns that a query selects. -/
def exports (ns : List SqlNode) : List String :=
  exportsIn (ns.takeWhile fun n => !n.isToken .from_)

/-- Whether a query only adds columns in front of those of a stored table. -/
def isTableSource (ns : List SqlNode) : Bool :=
  match ns.reverse with
  | .chunk (.ident _) :: .chunk (.token .from_) :: .chunk (.token .star) :: _ => isQuery ns
  | _ => false

mutual

/-- The queries inside a node, apart from table sources. -/
def SqlNode.queries : SqlNode → List (List SqlNode)
  | .chunk _ => []
  | .group ns =>
    if isTableSource ns then [] else (if isQuery ns then [ns] else []) ++ queries ns

/-- The queries inside nodes, apart from table sources. -/
def queries : List SqlNode → List (List SqlNode)
  | [] => []
  | n :: rest => n.queries ++ queries rest

end

/-- The query levels of a statement, apart from table sources; the outermost comes first. -/
def levels (ns : List SqlNode) : List (List SqlNode) :=
  ns :: queries ns

/-- Every name that a level uses is introduced where it may be used. -/
structure InScope (ns : List SqlNode) : Prop where
  /-- A column is one of a table that the level introduces. -/
  references : ∀ r ∈ references ns, r.table ∈ introduced ns
  /-- A join condition reads only the joined table and those introduced before. -/
  conditions : ∀ c ∈ conditions [] ns, ∀ r ∈ NestedQuery.references c.2, r.table ∈ c.1
  /-- A column of the derived table is one that the query behind it selects once. -/
  exports : ∀ r ∈ NestedQuery.references ns, r.table = derivedTable →
    ∃ i ∈ introductions ns, i.name = derivedTable ∧
      (NestedQuery.exports i.rows).count r.column = 1

theorem introductions_subset_append (ns ms : List SqlNode) :
    introductions ms ⊆ introductions (ns ++ ms) := by
  induction ns with
  | nil => exact List.Subset.refl _
  | cons n ns ih => exact List.subset_append_of_subset_right _ ih

/-- A table source reads from a stored table. -/
theorem exists_introduction_of_isTableSource {ns : List SqlNode} (h : isTableSource ns) :
    ∃ i ∈ introductions ns, i.rows = [] := by
  unfold isTableSource at h
  split at h
  · next name before hreverse =>
    obtain rfl := List.reverse_eq_iff.mp hreverse
    simp only [List.reverse_cons, List.append_assoc]
    exact ⟨⟨name, []⟩, introductions_subset_append _ _ (List.mem_singleton_self _), rfl⟩
  · exact absurd h Bool.false_ne_true

/-! ### The nodes of a fragment -/

/-- Wherever the fragment stands, it adds the nodes to those read so far. -/
def Nests (f : Fragment) (ns : List SqlNode) : Prop :=
  ∀ done outer rest, nest done outer (expandAll f ++ rest) = nest (done ++ ns) outer rest

theorem Nests.nodes_eq {f : Fragment} {ns : List SqlNode} (h : Nests f ns) : f.nodes = some ns := by
  have h := h [] [] []
  rwa [List.append_nil] at h

theorem nests_nil : Nests [] [] := fun done outer rest => by
  rw [List.append_nil]
  rfl

theorem Nests.append {f g : Fragment} {ns ms : List SqlNode} (hf : Nests f ns) (hg : Nests g ms) :
    Nests (f ++ g) (ns ++ ms) := by
  intro done outer rest
  rw [expandAll_append, List.append_assoc, hf, hg, List.append_assoc]

/-- Tokens other than parentheses are nodes. -/
theorem nests_token {t : Token} (hopen : t ≠ .openParen) (hclose : t ≠ .closeParen) :
    Nests [.token t] [.chunk (.token t)] := by
  intro done outer rest
  cases t <;> first | rfl | exact absurd rfl hopen | exact absurd rfl hclose

/-- Tokens other than parentheses are nodes. -/
theorem nests_tokens (ts : List Token)
    (hts : ts.all fun t => t != .openParen && t != .closeParen) :
    Nests (ts.map Chunk.token) (ts.map fun t => .chunk (.token t)) := by
  induction ts with
  | nil => exact nests_nil
  | cons t ts ih =>
    rw [List.all_cons, Bool.and_eq_true, Bool.and_eq_true, bne_iff_ne, bne_iff_ne] at hts
    obtain ⟨⟨hopen, hclose⟩, hrest⟩ := hts
    exact (nests_token hopen hclose).append (ih hrest)

theorem nests_ident (name : String) : Nests [.ident name] [.chunk (.ident name)] :=
  fun _ _ _ => rfl

theorem nests_raw (text : String) : Nests [.raw text] [.chunk (.raw text)] :=
  fun _ _ _ => rfl

theorem nests_number (n : Nat) : Nests [.number n] [.chunk (.number n)] :=
  fun _ _ _ => rfl

theorem nests_function (name : String) : Nests [.function name] [.chunk (.function name)] :=
  fun _ _ _ => rfl

theorem nests_param (id : ParamId) : Nests [.param id] [.chunk (.param id)] :=
  fun _ _ _ => rfl

theorem nests_qualified (table column : String) : Nests (Fragment.qualified table column)
    [.chunk (.ident table), .chunk (.token .dot), .chunk (.ident column)] := by
  intro done outer rest
  show nest (((done ++ _) ++ _) ++ _) outer rest = _
  rw [List.append_assoc, List.append_assoc]
  rfl

/-- What has been read outside all parentheses stays in front. -/
theorem prefix_of_nest {cs : List Chunk} {done ns : List SqlNode} {outer : List (List SqlNode)}
    (h : nest done outer cs = some ns) : outer.getLast?.getD done <+: ns := by
  induction done, outer, cs using nest.induct with
  | case1 done outer houter =>
    rw [nest, if_pos houter, Option.some.injEq] at h
    rw [List.isEmpty_iff.mp houter, h]
    exact List.prefix_refl _
  | case2 done outer houter =>
    -- A parenthesis stays open.
    rw [nest, if_neg houter] at h
    exact absurd h nofun
  | case3 done outer rest ih =>
    have h := ih h
    rwa [List.getLast?_cons, Option.getD_some] at h
  | case4 done rest => exact absurd h nofun
  | case5 done rest before outer ih =>
    -- The group is added to what stands around it, which goes on only if this is outermost.
    have h := ih h
    cases outer with
    | nil => exact (List.prefix_append ..).trans h
    | cons _ _ => rwa [List.getLast?_cons_cons]
  | case6 done outer c rest hopen hclose ih =>
    have h := ih (by rwa [nest.eq_5 _ _ _ _ hopen hclose] at h)
    cases outer with
    | nil => exact (List.prefix_append ..).trans h
    | cons _ _ => exact h

/-- A token in front is the first node. -/
theorem Nests.head?_eq {t : Token} (hopen : t ≠ .openParen) (hclose : t ≠ .closeParen)
    {f : Fragment} {ns : List SqlNode} (h : Nests ([.token t] ++ f) ns) :
    ns.head? = some (.chunk (.token t)) := by
  have hnest := h [] [] []
  rw [expandAll_append, List.append_assoc, nests_token hopen hclose] at hnest
  obtain ⟨rest, rfl⟩ := prefix_of_nest (hnest.trans rfl)
  rfl

theorem Nests.parens {f : Fragment} {ns : List SqlNode} (h : Nests f ns) :
    Nests f.parens [.group ns] := by
  intro done outer rest
  have hclose : expandAll (f ++ [.token .closeParen]) = expandAll f ++ [.token .closeParen] :=
    expandAll_append f _
  show nest [] (done :: outer) (expandAll (f ++ [.token .closeParen]) ++ rest) = _
  rw [hclose, List.append_assoc, h]
  rfl

/-- A function stands before the group of its arguments. -/
theorem Nests.call {f : Fragment} {ns : List SqlNode} (h : Nests f ns) (name : String) :
    ∃ ms, Nests (Fragment.call name f) [.chunk (.function name), .group ms] := by
  unfold Fragment.call
  split
  · exact ⟨_, (nests_function name).append h.parens.parens⟩
  · exact ⟨_, (nests_function name).append h.parens⟩

theorem Nests.distinct {f : Fragment} {ns : List SqlNode} (h : Nests f ns) (distinct : Bool) :
    ∃ ms, Nests (if distinct then .token .distinct :: f else f) ms := by
  cases distinct with
  | false => exact ⟨ns, h⟩
  | true => exact ⟨_, (nests_tokens [.distinct] rfl).append h⟩

theorem Nests.named {f : Fragment} {ns : List SqlNode} (h : Nests f ns) (name : String) :
    Nests (f.named name) (ns ++ [.chunk (.token .as_), .chunk (.ident name)]) :=
  h.append ((nests_tokens [.as_] rfl).append (nests_ident name))

theorem Nests.inList {f : Fragment} {ns : List SqlNode} (h : Nests f ns) (id : ParamId) :
    Nests [.inList f id] (ns ++ [.chunk (.token .in_), .group [.chunk (.param id)]]) := by
  have hlist : Nests (Fragment.parens [.param id]) [.group [.chunk (.param id)]] :=
    (nests_param id).parens
  have hall : Nests (f ++ ([.token .in_] ++ Fragment.parens [.param id]))
      (ns ++ [.chunk (.token .in_), .group [.chunk (.param id)]]) :=
    h.append ((nests_tokens [.in_] rfl).append hlist)
  have hexpand : expandAll [.inList f id] =
      expandAll (f ++ ([.token .in_] ++ Fragment.parens [.param id])) := by
    rw [expandAll_append]
    exact List.append_nil _
  intro done outer rest
  rw [hexpand]
  exact hall done outer rest

/-! ### References -/

/-- Whether nodes start with a point. -/
def startsWithDot (ns : List SqlNode) : Bool :=
  ns.head?.any (SqlNode.isToken .dot)

/-- The nodes refer to columns in `R` only, wherever they stand before something else than a
point. -/
structure RefersTo (R : Reference → Prop) (ns : List SqlNode) : Prop where
  /-- They do not start with a point. -/
  first : startsWithDot ns = false
  /-- They add references in `R`. -/
  adds {rest : List SqlNode} : startsWithDot rest = false →
    ∀ r ∈ references (ns ++ rest), R r ∨ r ∈ references rest

section

variable {R : Reference → Prop} {ns ms : List SqlNode}

theorem RefersTo.forall_mem (h : RefersTo R ns) : ∀ r ∈ references ns, R r := by
  intro r hr
  rw [← List.append_nil ns] at hr
  exact (h.adds rfl r hr).resolve_right List.not_mem_nil

theorem RefersTo.mono {S : Reference → Prop} (h : RefersTo R ns) (hRS : ∀ r, R r → S r) :
    RefersTo S ns :=
  ⟨h.first, fun hrest r hr => (h.adds hrest r hr).imp_left (hRS r)⟩

theorem refersTo_nil : RefersTo R [] :=
  ⟨rfl, fun _ _ hr => Or.inr hr⟩

theorem startsWithDot_append (hns : startsWithDot ns = false) (hms : startsWithDot ms = false) :
    startsWithDot (ns ++ ms) = false := by
  cases ns with
  | nil => exact hms
  | cons n ns => exact hns

theorem RefersTo.append (h : RefersTo R ns) (h' : RefersTo R ms) : RefersTo R (ns ++ ms) := by
  refine ⟨startsWithDot_append h.first h'.first, fun {rest} hrest r hr => ?_⟩
  rw [List.append_assoc] at hr
  rcases h.adds (startsWithDot_append h'.first hrest) r hr with hr | hr
  · exact Or.inl hr
  · exact h'.adds hrest r hr

/-- A reference needs a name in front. -/
theorem reference?_eq_none {n : SqlNode} {rest : List SqlNode}
    (hrest : startsWithDot rest = false) :
    reference? (n :: rest) = none := by
  unfold reference?
  split
  · next heq =>
    obtain ⟨-, rfl⟩ := List.cons.inj heq
    exact absurd hrest (by simp [startsWithDot, SqlNode.isToken])
  · rfl

/-- A single node refers to what stands inside it. -/
theorem refersTo_singleton {n : SqlNode} (hn : n.isToken .dot = false)
    (href : ∀ r ∈ n.references, R r) : RefersTo R [n] := by
  refine ⟨by rw [startsWithDot]; exact hn, fun {rest} hrest r hr => ?_⟩
  rw [List.singleton_append, references, reference?_eq_none hrest] at hr
  rcases List.mem_append.mp hr with hr | hr
  · exact Or.inl (href r hr)
  · exact Or.inr hr

theorem refersTo_chunk {c : Chunk} (hc : c ≠ .token .dot) : RefersTo R [.chunk c] := by
  refine refersTo_singleton ?_ (fun r hr => absurd hr (by simp [SqlNode.references]))
  cases c with
  | token t => cases t <;> first | rfl | exact absurd rfl hc
  | _ => rfl

theorem RefersTo.group (h : RefersTo R ns) : RefersTo R [.group ns] := by
  refine refersTo_singleton rfl fun r hr => ?_
  rw [SqlNode.references] at hr
  split at hr
  · exact absurd hr List.not_mem_nil
  · exact h.forall_mem r hr

/-- A query has references of its own. -/
theorem refersTo_query (h : isQuery ns) : RefersTo R [.group ns] := by
  refine refersTo_singleton rfl fun r hr => ?_
  rw [SqlNode.references, if_pos h] at hr
  exact absurd hr List.not_mem_nil

/-- A column of a table is one reference. -/
theorem references_qualified (table column : String) {rest : List SqlNode}
    (hrest : startsWithDot rest = false) :
    references ([.chunk (.ident table), .chunk (.token .dot), .chunk (.ident column)] ++ rest) =
      ⟨table, column⟩ :: references rest := by
  show [_] ++ [] ++ ([] ++ [] ++ ((reference? (.chunk (.ident column) :: rest)).toList ++ []
    ++ references rest)) = _
  rw [reference?_eq_none hrest]
  rfl

theorem refersTo_qualified {table column : String} (h : R ⟨table, column⟩) :
    RefersTo R [.chunk (.ident table), .chunk (.token .dot), .chunk (.ident column)] := by
  refine ⟨rfl, fun {rest} hrest r hr => ?_⟩
  rw [references_qualified table column hrest] at hr
  rcases List.mem_cons.mp hr with rfl | hr
  · exact Or.inl h
  · exact Or.inr hr

end

/-! ### Names and conditions -/

/-- Whether nodes start a clause, or are at the end. -/
def endsClause (ns : List SqlNode) : Bool :=
  ns.head?.all SqlNode.startsClause

theorem endsClause_append {ns ms : List SqlNode} (hns : endsClause ns) (hms : endsClause ms) :
    endsClause (ns ++ ms) := by
  cases ns with
  | nil => exact hms
  | cons n ns => exact hns

/-- The condition reads only what is introduced before it. -/
def Settled (c : List String × List SqlNode) : Prop :=
  ∀ r ∈ references c.2, r.table ∈ c.1

/-- After the names `before`, the nodes introduce `is`, and their join conditions are settled. A
join condition at their end must be followed by another clause. -/
structure Extends (before : List String) (ns : List SqlNode) (is : List Introduction) : Prop where
  /-- The introductions. -/
  introduces (rest : List SqlNode) : introductions (ns ++ rest) = is ++ introductions rest
  /-- The conditions. -/
  settles {rest : List SqlNode} : (ns.any (SqlNode.isToken .on_) → endsClause rest) →
    ∀ c ∈ conditions before (ns ++ rest),
      Settled c ∨ c ∈ conditions (before ++ is.map Introduction.name) rest

section

variable {before : List String} {ns ms : List SqlNode} {is js : List Introduction}

theorem Extends.introductions_eq (h : Extends before ns is) : introductions ns = is := by
  have h := h.introduces []
  rwa [List.append_nil, introductions, List.append_nil] at h

theorem Extends.conditions_settled (h : Extends before ns is) :
    ∀ c ∈ conditions before ns, Settled c := by
  intro c hc
  rw [← List.append_nil ns] at hc
  exact (h.settles (fun _ => rfl) c hc).resolve_right List.not_mem_nil

theorem Extends.append (h : Extends before ns is)
    (h' : Extends (before ++ is.map Introduction.name) ms js)
    (hms : ns.any (SqlNode.isToken .on_) → endsClause ms) :
    Extends before (ns ++ ms) (is ++ js) := by
  constructor
  · intro rest
    rw [List.append_assoc, h.introduces, h'.introduces, List.append_assoc]
  · intro rest hrest c hc
    rw [List.any_append, Bool.or_eq_true] at hrest
    rw [List.append_assoc] at hc
    -- A condition at the end of the first part ends where the next clause starts.
    have hmid : ns.any (SqlNode.isToken .on_) → endsClause (ms ++ rest) := fun hon =>
      endsClause_append (hms hon) (hrest (Or.inl hon))
    rcases h.settles hmid c hc with hc | hc
    · exact Or.inl hc
    · rw [List.map_append, ← List.append_assoc]
      exact h'.settles (fun hon => hrest (Or.inr hon)) c hc

/-- A name is introduced behind `FROM` and `JOIN` only. -/
theorem introduction?_eq_none {n : SqlNode} (hfrom : n.isToken .from_ = false)
    (hjoin : n.isToken .join = false) (rest : List SqlNode) : introduction? (n :: rest) = none := by
  have hne : ∀ {t : Token}, n = .chunk (.token t) → ¬(t = .from_ ∨ t = .join) := by
    rintro t rfl (rfl | rfl)
    · exact absurd hfrom (by decide)
    · exact absurd hjoin (by decide)
  unfold introduction?
  split
  · next heq => exact if_neg (hne (List.cons.inj heq).1)
  · next heq => exact if_neg (hne (List.cons.inj heq).1)
  · next heq => exact if_neg (hne (List.cons.inj heq).1)
  · rfl

/-- Nodes that start no clause are not the keyword of one. -/
theorem isToken_eq_false_of_startsClause {t : Token} (ht : t.startsClause) {n : SqlNode}
    (hn : n.startsClause = false) : n.isToken t = false := by
  by_contra htoken
  cases n with
  | chunk c =>
    cases c with
    | token u =>
      obtain rfl : t = u := by simpa [SqlNode.isToken] using htoken
      exact absurd hn (by rw [SqlNode.startsClause, ht]; decide)
    | _ => exact absurd rfl htoken
  | group _ => exact absurd rfl htoken

/-- Nodes that start no clause introduce nothing. -/
theorem extends_of_not_startsClause (h : ∀ n ∈ ns, n.startsClause = false) :
    Extends before ns [] := by
  -- `FROM`, `JOIN` and `ON` start clauses, so none of them is among the nodes.
  have hfrom := fun n hn => isToken_eq_false_of_startsClause (t := .from_) rfl (h n hn)
  have hjoin := fun n hn => isToken_eq_false_of_startsClause (t := .join) rfl (h n hn)
  have hon := fun n hn => isToken_eq_false_of_startsClause (t := .on_) rfl (h n hn)
  clear h
  constructor
  · intro rest
    induction ns with
    | nil => rfl
    | cons n ns ih =>
      rw [List.forall_mem_cons] at hfrom hjoin hon
      rw [List.cons_append, introductions, introduction?_eq_none hfrom.1 hjoin.1,
        ih hfrom.2 hjoin.2 hon.2]
      rfl
  · intro rest hrest c hc
    clear hrest
    rw [List.map_nil, List.append_nil]
    induction ns with
    | nil => exact Or.inr hc
    | cons n ns ih =>
      rw [List.forall_mem_cons] at hfrom hjoin hon
      rw [List.cons_append, conditions, introduction?_eq_none hfrom.1 hjoin.1, hon.1,
        if_neg Bool.false_ne_true, List.nil_append, Option.toList_none, List.map_nil,
        List.append_nil] at hc
      exact ih hfrom.2 hjoin.2 hon.2 hc

/-- A keyword that introduces nothing by itself. -/
theorem extends_token {t : Token} (hfrom : t ≠ .from_) (hjoin : t ≠ .join) (hon : t ≠ .on_) :
    Extends before [.chunk (.token t)] [] := by
  have htoken : ∀ {u : Token}, t ≠ u → (SqlNode.chunk (.token t)).isToken u = false := fun h =>
    beq_false_of_ne (Ne.symm h)
  constructor
  · intro rest
    rw [List.singleton_append, introductions,
      introduction?_eq_none (htoken hfrom) (htoken hjoin)]
    rfl
  · intro rest _ c hc
    rw [List.singleton_append, conditions, introduction?_eq_none (htoken hfrom) (htoken hjoin),
      htoken hon, Option.toList_none, List.map_nil, List.append_nil] at hc
    rw [List.map_nil, List.append_nil]
    exact Or.inr hc

/-- A query under a name, behind `FROM` or `JOIN`. -/
theorem extends_source {t : Token} (ht : t = .from_ ∨ t = .join) (rows : List SqlNode)
    (name : String) : Extends before
      [.chunk (.token t), .group rows, .chunk (.token .as_), .chunk (.ident name)]
      [⟨name, rows⟩] := by
  have hon : (SqlNode.chunk (.token t)).isToken .on_ = false := by
    rcases ht with rfl | rfl <;> rfl
  have hintroduction : ∀ rest, introduction? (.chunk (.token t) :: ([.group rows,
      .chunk (.token .as_), .chunk (.ident name)] ++ rest)) = some ⟨name, rows⟩ := fun rest =>
    if_pos ht
  -- What follows the keyword introduces nothing by itself.
  have htail : ∀ before, Extends before
      [.group rows, .chunk (.token .as_), .chunk (.ident name)] [] := fun before =>
    extends_of_not_startsClause (by simp [SqlNode.startsClause, Token.startsClause])
  constructor
  · intro rest
    rw [List.cons_append, introductions, hintroduction, (htail []).introduces]
    rfl
  · intro rest _ c hc
    rw [List.cons_append, conditions, hintroduction, hon, if_neg Bool.false_ne_true,
      List.nil_append] at hc
    rcases (htail _).settles nofun c hc with hc | hc
    · exact Or.inl hc
    · rw [List.map_nil, List.append_nil] at hc
      exact Or.inr hc

/-- The condition of a join, up to the next clause. -/
theorem extends_condition {cond : List SqlNode} (hcond : ∀ n ∈ cond, n.startsClause = false)
    (hsettled : Settled (before, cond)) :
    Extends before (.chunk (.token .on_) :: cond) [] := by
  have hquiet : Extends before cond [] := extends_of_not_startsClause hcond
  constructor
  · intro rest
    rw [List.cons_append, introductions, introduction?_eq_none rfl rfl, hquiet.introduces]
    rfl
  · intro rest hrest c hc
    -- The condition goes up to the clause that the rest starts with.
    have htake : (cond ++ rest).takeWhile (fun m => !m.startsClause) = cond := by
      have hend : endsClause rest := hrest rfl
      rw [List.takeWhile_append_of_pos fun n hn => by simp [hcond n hn]]
      cases rest with
      | nil => exact List.append_nil _
      | cons m rest =>
        have hm : m.startsClause = true := hend
        rw [List.takeWhile_cons_of_neg (by simp [hm]), List.append_nil]
    have hnone : introduction? (.chunk (.token .on_) :: (cond ++ rest)) = none :=
      introduction?_eq_none rfl rfl _
    rw [List.cons_append, conditions, htake, hnone, Option.toList_none, List.map_nil,
      List.append_nil] at hc
    rcases List.mem_cons.mp hc with rfl | hc
    · exact Or.inl hsettled
    · refine hquiet.settles ?_ c hc
      intro hon
      exact hrest (by rw [List.any_cons, hon, Bool.or_true])

end

/-! ### Quiet fragments -/

theorem queries_append (ns ms : List SqlNode) : queries (ns ++ ms) = queries ns ++ queries ms := by
  induction ns with
  | nil => rfl
  | cons n ns ih => rw [List.cons_append, queries, ih, queries, List.append_assoc]

/-- The nodes refer to columns in `R` only, and hold no clause and no query. -/
structure Quiet (R : Reference → Prop) (ns : List SqlNode) : Prop where
  /-- The references. -/
  refers : RefersTo R ns
  /-- No clause starts here. -/
  clause : ∀ n ∈ ns, n.startsClause = false
  /-- There is no query inside. -/
  queries : queries ns = []

section

variable {R : Reference → Prop} {ns ms : List SqlNode}

theorem Quiet.mono {S : Reference → Prop} (h : Quiet R ns) (hRS : ∀ r, R r → S r) : Quiet S ns :=
  ⟨h.refers.mono hRS, h.clause, h.queries⟩

theorem quiet_nil : Quiet R [] :=
  ⟨refersTo_nil, nofun, rfl⟩

theorem Quiet.append (h : Quiet R ns) (h' : Quiet R ms) : Quiet R (ns ++ ms) := by
  refine ⟨h.refers.append h'.refers, ?_, ?_⟩
  · rw [List.forall_mem_append]
    exact ⟨h.clause, h'.clause⟩
  · rw [queries_append, h.queries, h'.queries]
    rfl

theorem quiet_chunk {c : Chunk} (hdot : c ≠ .token .dot)
    (hclause : (SqlNode.chunk c).startsClause = false) : Quiet R [.chunk c] :=
  ⟨refersTo_chunk hdot, List.forall_mem_singleton.mpr hclause, rfl⟩

theorem Quiet.isQuery_eq_false (h : Quiet R ns) : isQuery ns = false := by
  cases ns with
  | nil => rfl
  | cons n ns => exact isToken_eq_false_of_startsClause rfl (h.clause n (List.mem_cons_self ..))

theorem isTableSource_eq_false (h : isQuery ns = false) : isTableSource ns = false := by
  unfold isTableSource
  split
  · exact h
  · rfl

theorem Quiet.group (h : Quiet R ns) : Quiet R [.group ns] := by
  refine ⟨h.refers.group, List.forall_mem_singleton.mpr rfl, ?_⟩
  have hquery := h.isQuery_eq_false
  show (if isTableSource ns then []
    else (if isQuery ns then [ns] else []) ++ NestedQuery.queries ns) ++ [] = []
  rw [isTableSource_eq_false hquery, hquery, h.queries]
  rfl

theorem quiet_qualified {table column : String} (h : R ⟨table, column⟩) :
    Quiet R [.chunk (.ident table), .chunk (.token .dot), .chunk (.ident column)] :=
  ⟨refersTo_qualified h, by simp [SqlNode.startsClause, Token.startsClause], rfl⟩

end

/-- The fragment adds quiet nodes. -/
def IsQuiet (R : Reference → Prop) (f : Fragment) : Prop :=
  ∃ ns, Nests f ns ∧ Quiet R ns

/-- **Quiet fragments** are closed under all that terms are put together with. -/
theorem closed_isQuiet (R : Reference → Prop) : Fragment.Closed (IsQuiet R) where
  nil := ⟨[], nests_nil, quiet_nil⟩
  append := fun ⟨_, hn, hq⟩ ⟨_, hn', hq'⟩ => ⟨_, hn.append hn', hq.append hq'⟩
  chunk {c} hc := by
    cases c with
    | token t =>
      refine ⟨_, nests_token ?_ ?_, quiet_chunk ?_ ?_⟩
      · rintro rfl
        exact absurd hc (by decide)
      · rintro rfl
        exact absurd hc (by decide)
      · rintro ⟨⟩
        exact absurd hc (by decide)
      · cases t <;> first | rfl | exact absurd hc (by decide)
    | raw text => exact ⟨_, nests_raw text, quiet_chunk (by simp) rfl⟩
    | number n => exact ⟨_, nests_number n, quiet_chunk (by simp) rfl⟩
    | param id => exact ⟨_, nests_param id, quiet_chunk (by simp) rfl⟩
    | _ => exact absurd hc nofun
  minus {f} _ := fun ⟨_, hn, hq⟩ =>
    ⟨_, (nests_tokens [.minus] rfl).append hn, (quiet_chunk (by simp) rfl).append hq⟩
  parens := fun ⟨_, hn, hq⟩ => ⟨_, hn.parens, hq.group⟩
  function {name f} _ := fun ⟨_, hn, hq⟩ =>
    ⟨_, (nests_function name).append hn.parens, (quiet_chunk (by simp) rfl).append hq.group⟩
  inList {f} id := fun ⟨_, hn, hq⟩ => by
    have hparam : Quiet R [.chunk (.param id)] := quiet_chunk (by simp) rfl
    have hin : Quiet R [.chunk (.token .in_)] := quiet_chunk (by simp) rfl
    exact ⟨_, hn.inList id, hq.append (hin.append hparam.group)⟩

theorem isQuiet_qualified {R : Reference → Prop} {table column : String} (h : R ⟨table, column⟩) :
    IsQuiet R (Fragment.qualified table column) :=
  ⟨_, nests_qualified table column, quiet_qualified h⟩

/-! ### Levels -/

/-- The nodes start a clause and refer to columns in `R` only. They extend what is introduced
before them, and the queries inside are `qs`. -/
structure Clause (R : Reference → Prop) (before : List String) (ns : List SqlNode)
    (is : List Introduction) (qs : List (List SqlNode)) : Prop where
  /-- The references. -/
  refers : RefersTo R ns
  /-- What is introduced. -/
  extends_ : Extends before ns is
  /-- The first node starts a clause. -/
  starts : endsClause ns
  /-- The queries. -/
  queries : queries ns = qs

section

variable {R : Reference → Prop} {before : List String} {ns ms : List SqlNode}
  {is js : List Introduction} {qs rs : List (List SqlNode)}

theorem clause_nil : Clause R before [] [] [] :=
  ⟨refersTo_nil, extends_of_not_startsClause nofun, rfl, rfl⟩

theorem Clause.append (h : Clause R before ns is qs)
    (h' : Clause R (before ++ is.map Introduction.name) ms js rs) :
    Clause R before (ns ++ ms) (is ++ js) (qs ++ rs) := by
  refine ⟨h.refers.append h'.refers, h.extends_.append h'.extends_ fun _ => h'.starts,
    endsClause_append h.starts h'.starts, ?_⟩
  rw [queries_append, h.queries, h'.queries]

/-- A keyword and what belongs to it. -/
theorem clause_token {t : Token} (hstarts : t.startsClause) (hfrom : t ≠ .from_) (hjoin : t ≠ .join)
    (hon : t ≠ .on_) (h : Quiet R ns) : Clause R before (.chunk (.token t) :: ns) [] [] := by
  have hdot : t ≠ .dot := by
    rintro rfl
    exact absurd hstarts (by decide)
  refine ⟨(refersTo_chunk fun heq => hdot (Chunk.token.inj heq)).append h.refers, ?_, hstarts,
    h.queries⟩
  exact (extends_token hfrom hjoin hon).append (extends_of_not_startsClause h.clause)
    fun hany => absurd hany (by simp [SqlNode.isToken, hon.symm])

/-- A query behind `FROM`, under a name. -/
theorem clause_from {rows : List SqlNode} (hquery : isQuery rows) (name : String) :
    Clause R before [.chunk (.token .from_), .group rows, .chunk (.token .as_),
      .chunk (.ident name)] [⟨name, rows⟩] (queries [.group rows]) := by
  have hname : RefersTo R [.chunk (.token .as_), .chunk (.ident name)] :=
    (refersTo_chunk (by simp)).append (refersTo_chunk (by simp))
  refine ⟨(refersTo_chunk (by simp)).append ((refersTo_query hquery).append hname),
    extends_source (Or.inl rfl) rows name, rfl, ?_⟩
  rfl

/-- A joined query under a name, with its condition. -/
theorem clause_join {kind : Token} (hkind : kind = .inner ∨ kind = .left) {rows : List SqlNode}
    (hquery : isQuery rows) (name : String) {cond : List SqlNode} (hcond : Quiet R cond)
    (hsettled : ∀ r ∈ references cond, r.table ∈ before ++ [name]) :
    Clause R before ([.chunk (.token kind), .chunk (.token .join), .group rows,
      .chunk (.token .as_), .chunk (.ident name), .chunk (.token .on_)] ++ cond)
      [⟨name, rows⟩] (queries [.group rows]) := by
  have hkeyword : Clause R before [.chunk (.token kind)] [] [] := by
    rcases hkind with rfl | rfl <;>
      exact clause_token rfl (by simp) (by simp) (by simp) quiet_nil
  have hname : RefersTo R [.chunk (.token .as_), .chunk (.ident name)] :=
    (refersTo_chunk (by simp)).append (refersTo_chunk (by simp))
  have hjoin : Clause R before [.chunk (.token .join), .group rows, .chunk (.token .as_),
      .chunk (.ident name)] [⟨name, rows⟩] (queries [.group rows]) :=
    ⟨(refersTo_chunk (by simp)).append ((refersTo_query hquery).append hname),
      extends_source (Or.inr rfl) rows name, rfl, rfl⟩
  -- The joined name may be used in the condition.
  have hon : Clause R (before ++ [name]) (.chunk (.token .on_) :: cond) [] [] :=
    ⟨(refersTo_chunk (by simp)).append hcond.refers, extends_condition hcond.clause hsettled, rfl,
      hcond.queries⟩
  have hsource : Clause R before [.chunk (.token kind), .chunk (.token .join), .group rows,
      .chunk (.token .as_), .chunk (.ident name)] [⟨name, rows⟩] (queries [.group rows]) :=
    hkeyword.append (by rw [List.map_nil, List.append_nil]; exact hjoin)
  have hall := hsource.append hon
  rwa [List.append_nil, List.append_nil] at hall

/-- What is known of a query level: what it refers to and introduces, and the queries inside. -/
structure IsLevel (R : Reference → Prop) (ns : List SqlNode) (is : List Introduction)
    (qs : List (List SqlNode)) : Prop where
  /-- The references. -/
  references : ∀ r ∈ references ns, R r
  /-- The introductions. -/
  introductions : introductions ns = is
  /-- The join conditions. -/
  conditions : ∀ c ∈ conditions [] ns, Settled c
  /-- The queries. -/
  queries : queries ns = qs

/-- A query level is a list of columns with further clauses. -/
theorem isLevel_of_clauses (hcolumns : Quiet R ns) (hclauses : Clause R [] ms is qs) :
    IsLevel R (.chunk (.token .select) :: ns ++ ms) is qs := by
  have hselect : Clause R [] (.chunk (.token .select) :: ns) [] [] :=
    clause_token rfl (by simp) (by simp) (by simp) hcolumns
  have h := hselect.append hclauses
  exact ⟨h.refers.forall_mem, h.extends_.introductions_eq, h.extends_.conditions_settled, h.queries⟩

end

/-! ### Selected columns -/

/-- The nodes give the names to columns. -/
def Exports (ns : List SqlNode) (names : List String) : Prop :=
  ∀ rest, exportsIn (ns ++ rest) = names ++ exportsIn rest

section

variable {ns ms : List SqlNode} {names names' : List String}

theorem exports_nil : Exports [] [] := fun _ => rfl

theorem Exports.append (h : Exports ns names) (h' : Exports ms names') :
    Exports (ns ++ ms) (names ++ names') := by
  intro rest
  rw [List.append_assoc, h, h', List.append_assoc]

theorem exports_of_forall (h : ∀ n ∈ ns, n.isToken .as_ = false) : Exports ns [] := by
  induction ns with
  | nil => exact exports_nil
  | cons n ns ih =>
    rw [List.forall_mem_cons] at h
    intro rest
    have hnone : ∀ rest, export? (n :: rest) = none := by
      intro rest
      unfold export?
      split
      · next heq =>
        obtain ⟨rfl, -⟩ := List.cons.inj heq
        exact absurd h.1 (by decide)
      · rfl
    rw [List.cons_append, exportsIn, hnone, ih h.2]
    rfl

theorem Exports.named (h : Exports ns []) (name : String) :
    Exports (ns ++ [.chunk (.token .as_), .chunk (.ident name)]) [name] := by
  have hname : Exports [.chunk (.token .as_), .chunk (.ident name)] [name] := by
    intro rest
    have htail : Exports [.chunk (.ident name)] [] := exports_of_forall (by simp [SqlNode.isToken])
    show [name] ++ exportsIn ([.chunk (.ident name)] ++ rest) = _
    rw [htail]
    rfl
  have hall := h.append hname
  rwa [List.nil_append] at hall

/-- A query selects the columns before its `FROM`. -/
theorem exports_eq (h : Exports ns names) (hclause : ∀ n ∈ ns, n.startsClause = false)
    (hfrom : ms.head?.all (SqlNode.isToken .from_)) :
    exports (.chunk (.token .select) :: ns ++ ms) = names := by
  -- No `FROM` stands among the columns, so they are all of what is taken.
  have hcolumns : ∀ n ∈ SqlNode.chunk (.token .select) :: ns, !n.isToken .from_ := by
    rw [List.forall_mem_cons]
    refine ⟨rfl, fun n hn => ?_⟩
    rw [isToken_eq_false_of_startsClause rfl (hclause n hn), Bool.not_false]
  have hnone : ms.takeWhile (fun n => !n.isToken .from_) = [] := by
    cases ms with
    | nil => rfl
    | cons m ms =>
      have hm : m.isToken .from_ = true := hfrom
      rw [List.takeWhile_cons_of_neg (by simp [hm])]
  have h := h []
  rw [exports, List.takeWhile_append_of_pos hcolumns, hnone, List.append_nil]
  rw [List.append_nil, exportsIn, List.append_nil] at h
  show (export? _).toList ++ exportsIn ns = names
  rw [h]
  rfl

end

end NestedQuery
