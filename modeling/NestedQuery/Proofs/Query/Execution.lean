import NestedQuery.Proofs.Select.Sources
import NestedQuery.Proofs.Yields
import NestedQuery.Query

/-!
# Rows from a cursor and from a stream

A cursor yields rows until it fails or there are none left; a stream yields rows and failures, and
may go on after a failure. Both readers come to the same (`readCursor_cursor`, `readStream_stream`):
they push the rows up to the failure, and fail if there is one. So a query has the same documents,
errors and messages whichever way its rows come (`overCursor_eq_overStream`). A row that is refused
before the failure decides, and the failure decides over all rows behind it.
-/

namespace NestedQuery

/-- What a database has to say to a statement: rows, and a failure after so many of them, or after
the last one if there are fewer. -/
structure Answer where
  /-- The rows. -/
  rows : List Row
  /-- How many rows come before the failure, and the failure. -/
  failure? : Option (Nat × Error) := none

namespace Answer

/-- The rows before the failure. -/
def reached (a : Answer) : List Row :=
  match a.failure? with
  | none => a.rows
  | some (k, _) => a.rows.take k

/-- The answer as a cursor, which ends at the failure. -/
def cursor (a : Answer) : Cursor :=
  ⟨a.reached, a.failure?.map Prod.snd⟩

/-- The answer as a stream, in which the other rows follow the failure. -/
def stream (a : Answer) : List (Result Row) :=
  match a.failure? with
  | none => a.rows.map .ok
  | some (k, e) => (a.rows.take k).map .ok ++ .error e :: (a.rows.drop k).map .ok

end Answer

namespace Query

/-! ### Reading -/

/-- Pushes rows, and then fails if there is a failure, else counts them. -/
def readAnswer (p : Plan) (count : Nat) (rows : List Row) (failure? : Option Error) :
    Build Nat := do
  rows.forM (Graph.push p)
  match failure? with
  | some e => throw e
  | none => return count + rows.length

theorem readAnswer_cons (p : Plan) (count : Nat) (r : Row) (rows : List Row)
    (failure? : Option Error) :
    readAnswer p count (r :: rows) failure? =
      (do Graph.push p r; readAnswer p (count + 1) rows failure?) := by
  show ((Graph.push p r >>= fun _ => rows.forM (Graph.push p)) >>= fun _ => _) = _
  rw [bind_assoc, List.length_cons, Nat.add_comm rows.length, ← Nat.add_assoc]
  rfl

/-- What a cursor yields is pushed up to its end. -/
theorem readCursor_eq (p : Plan) (count : Nat) (rows : List Row) (failure? : Option Error) :
    readCursor p count ⟨rows, failure?⟩ = readAnswer p count rows failure? := by
  induction rows generalizing count with
  | nil =>
    rw [readCursor]
    cases failure? <;> rfl
  | cons r rows ih =>
    rw [readAnswer_cons, ← ih, readCursor]
    rfl

/-- A stream is read up to its first failure. -/
theorem readStream_append (p : Plan) (count : Nat) (rows : List Row) (rest : List (Result Row)) :
    readStream p count (rows.map .ok ++ rest) =
      (do rows.forM (Graph.push p); readStream p (count + rows.length) rest) := by
  induction rows generalizing count with
  | nil => rfl
  | cons r rows ih =>
    show (Graph.push p r >>= fun _ => readStream p (count + 1) (rows.map .ok ++ rest)) =
      ((Graph.push p r >>= fun _ => rows.forM (Graph.push p)) >>= fun _ => _)
    rw [ih, bind_assoc, List.length_cons, Nat.add_comm rows.length, ← Nat.add_assoc]

theorem readCursor_cursor (p : Plan) (a : Answer) :
    readCursor p 0 a.cursor = readAnswer p 0 a.reached (a.failure?.map Prod.snd) :=
  readCursor_eq p 0 _ _

theorem readStream_stream (p : Plan) (a : Answer) :
    readStream p 0 a.stream = readAnswer p 0 a.reached (a.failure?.map Prod.snd) := by
  obtain ⟨rows, failure?⟩ := a
  cases failure? with
  | none =>
    have h := readStream_append p 0 rows []
    rwa [List.append_nil] at h
  | some failure =>
    -- The rows after the failure are not looked at.
    exact readStream_append p 0 (rows.take failure.1) (.error failure.2 :: _)

/-! ### Executing -/

/-- What is done to the answers may as well be done by the reader. -/
theorem fetchWith_map {ρ ρ' : Type} (read : Plan → ρ' → Build Nat) (f : ρ → ρ') (q : Query)
    (execute : Rendered → Result ρ) (arguments : Document) :
    fetchWith read q (fun rendered => (execute rendered).map f) arguments =
      fetchWith (fun p answer => read p (f answer)) q execute arguments := by
  unfold fetchWith
  refine bind_congr fun rendered => bind_congr fun _ => ?_
  dsimp only
  cases execute rendered <;> rfl

theorem fails_ofBuild {α : Type} {action : Build α} {e : Error} (h : Fails action {} e)
    (log : List LogEntry) : Fails (ofBuild action) log e := by
  unfold Fails at h
  unfold ofBuild
  rcases hrun : action.run {} with ⟨outcome, g⟩
  obtain rfl : outcome = .error e := (congrArg Prod.fst hrun).symm.trans h
  exact fails_bind_iff.mpr (Or.inr ⟨(), _, rfl, fails_bind_iff.mpr (Or.inl rfl)⟩)

/-- An execution fails as the reading of its rows does. -/
theorem fails_fetchWith {ρ : Type} {read : Plan → ρ → Build Nat} {q : Query}
    {execute : Rendered → Result ρ} {arguments : Document} {rendered : Rendered} {answer : ρ}
    {e : Error} (hrender : q.render arguments = .ok rendered)
    (hexecute : execute rendered = .ok answer) (hread : Fails (read q.plan answer) {} e)
    (log : List LogEntry) : Fails (fetchWith read q execute arguments) log e := by
  unfold fetchWith
  rw [hrender]
  refine fails_bind_iff.mpr (Or.inr ⟨rendered, log, rfl, ?_⟩)
  refine fails_bind_iff.mpr (Or.inr ⟨(), _, rfl, ?_⟩)
  rw [hexecute]
  refine fails_bind_iff.mpr (Or.inr ⟨answer, _, rfl, ?_⟩)
  refine fails_bind_iff.mpr (Or.inr ⟨(), _, rfl, ?_⟩)
  exact fails_bind_iff.mpr (Or.inl (fails_ofBuild hread _))

/-- An execution whose rows come from a cursor. -/
def overCursor (q : Query) (execute : Rendered → Result Answer) :
    Document → Execute (List Document) :=
  q.fetchRows fun rendered => (execute rendered).map Answer.cursor

/-- An execution whose rows come as a stream. -/
def overStream (q : Query) (execute : Rendered → Result Answer) :
    Document → Execute (List Document) :=
  q.fetchStream fun rendered => (execute rendered).map Answer.stream

/-- Either way the rows before the failure are pushed, and then the failure counts. -/
theorem overCursor_eq (q : Query) (execute : Rendered → Result Answer) (arguments : Document) :
    q.overCursor execute arguments =
      fetchWith (fun p a => readAnswer p 0 a.reached (a.failure?.map Prod.snd)) q execute
        arguments := by
  unfold overCursor fetchRows
  rw [fetchWith_map]
  simp only [readCursor_cursor]

theorem overStream_eq (q : Query) (execute : Rendered → Result Answer) (arguments : Document) :
    q.overStream execute arguments =
      fetchWith (fun p a => readAnswer p 0 a.reached (a.failure?.map Prod.snd)) q execute
        arguments := by
  unfold overStream fetchStream
  rw [fetchWith_map]
  simp only [readStream_stream]

/-- **Cursors and streams agree.** Whatever a database answers to the statement, an execution has
the same outcome and the same messages whether the rows come from a cursor or as a stream. A row
before the failure that is refused, when those before it are not, decides over the failure; if all
rows before the failure are accepted, the failure is reported, whatever rows are behind it. -/
theorem overCursor_eq_overStream (q : Query) (execute : Rendered → Result Answer)
    (arguments : Document) :
    q.overCursor execute arguments = q.overStream execute arguments ∧
      ∀ rendered a, q.render arguments = .ok rendered → execute rendered = .ok a →
        (∀ before r after g e, a.reached = before ++ r :: after →
          Yields (before.forM (Graph.push q.plan)) {} () g → Fails (Graph.push q.plan r) g e →
          ∀ log, Fails (q.overCursor execute arguments) log e ∧
            Fails (q.overStream execute arguments) log e) ∧
        (∀ k e g, a.failure? = some (k, e) →
          Yields ((a.rows.take k).forM (Graph.push q.plan)) {} () g →
          ∀ log, Fails (q.overCursor execute arguments) log e ∧
            Fails (q.overStream execute arguments) log e) := by
  have hcursor := overCursor_eq q execute arguments
  have hstream := overStream_eq q execute arguments
  -- Both ways read the same answer, so they fail with it.
  have hfails : ∀ {rendered a}, q.render arguments = .ok rendered → execute rendered = .ok a →
      ∀ {e}, Fails (readAnswer q.plan 0 a.reached (a.failure?.map Prod.snd)) {} e →
      ∀ log, Fails (q.overCursor execute arguments) log e ∧
        Fails (q.overStream execute arguments) log e := by
    intro rendered a hrender hexecute e he log
    rw [hcursor, hstream]
    exact ⟨fails_fetchWith hrender hexecute he log, fails_fetchWith hrender hexecute he log⟩
  refine ⟨hcursor.trans hstream.symm, fun rendered a hrender hexecute => ⟨?_, ?_⟩⟩
  · intro before r after g e hreached hbefore hr
    refine hfails hrender hexecute (fails_bind_iff.mpr (Or.inl ?_))
    exact fails_forM_iff.mpr ⟨before, r, after, g, hreached, hbefore, hr⟩
  · intro k e g hfailure hrows
    refine hfails hrender hexecute ?_
    have hreached : a.reached = a.rows.take k := by rw [Answer.reached, hfailure]
    rw [hreached, hfailure]
    exact fails_bind_iff.mpr (Or.inr ⟨(), g, hrows, fails_throw_iff.mpr rfl⟩)

/-- A row of a person's name. -/
def personRow (name : String) (rowId : Value) : Row :=
  ⟨["##self", "t0.##rowid"], [.text name, rowId]⟩

/-- Two people, and somebody without a row number. -/
def peopleAnswer (failure : Nat × Error) : Answer :=
  ⟨[personRow "Ann" (.integer 1), personRow "Bob" (.integer 2), personRow "Cay" .null],
    some failure⟩

/-- Whether a step failed since a value cannot be converted. -/
def isUnconverted : Result Unit → Bool
  | .error (.unconvertible _) => true
  | _ => false

/-- The connection is lost before or behind the row that is refused. -/
theorem overCursor_eq_overStream_people :
    ∃ query n', (people.compile {} (shapeField "person" "name")).run 0 = .ok (query, n') ∧
      Fails (query.overCursor (fun _ => .ok (peopleAnswer (2, .driver "lost"))) .null) []
        (.driver "lost") ∧
      ∃ u, Fails (query.overCursor (fun _ => .ok (peopleAnswer (3, .driver "lost"))) .null) []
        (.unconvertible u) := by
  have hrun : ((people.compile {} (shapeField "person" "name")).run 0).any (fun x =>
      let pushed := ((peopleAnswer (2, .driver "lost")).reached.forM
        (Graph.push x.1.plan)).run.run {}
      (x.1.render .null).isOk && pushed.1.isOk &&
        isUnconverted ((Graph.push x.1.plan (personRow "Cay" .null)).run.run pushed.2).1) =
          true := by decide +kernel
  obtain ⟨⟨query, n'⟩, hquery, hfacts⟩ := Result.any_eq_true_iff.mp hrun
  rw [Bool.and_eq_true, Bool.and_eq_true] at hfacts
  obtain ⟨⟨hrender, hpushed⟩, hrefused⟩ := hfacts
  obtain ⟨rendered, hrender⟩ : ∃ rendered, query.render .null = .ok rendered := by
    cases h : query.render .null with
    | ok rendered => exact ⟨rendered, rfl⟩
    | error e => rw [h] at hrender; cases hrender
  obtain ⟨_, g, hg⟩ := exists_yields_of_isOk hpushed
  rw [show (((peopleAnswer (2, .driver "lost")).reached.forM
    (Graph.push query.plan)).run.run {}).2 = g from congrArg Prod.snd hg] at hrefused
  refine ⟨query, n', hquery, ?_, ?_⟩
  · exact ((overCursor_eq_overStream query _ .null).2 rendered _ hrender rfl).2 2 _ g rfl hg [] |>.1
  · unfold isUnconverted at hrefused
    split at hrefused
    · next u heq =>
      exact ⟨u, ((overCursor_eq_overStream query _ .null).2 rendered _ hrender rfl).1 _ _ [] g _ rfl
        hg heq [] |>.1⟩
    · cases hrefused

end Query

end NestedQuery
