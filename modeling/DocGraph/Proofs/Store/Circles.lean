import Mathlib.Data.Finset.Card
import Mathlib.Data.List.Nodup
import Mathlib.Logic.Relation
import DocGraph.Proofs.Store.Trails

/-!
# Circles of cursors

A store that answers by the cursor alone leads a query from cursor to cursor. The run is given
up when a page hands back the cursor that it was asked with. A longer circle of cursors goes
unnoticed, and the query is never drained; without one, no cursor is handed out twice.
-/

namespace DocGraph

open Json

/-- The answer to a cursor hands another cursor out. -/
def StoreReply.HandsOut (answer : Option String → StoreReply) (cursor next : Option String) :
    Prop :=
  ∃ page text, answer cursor = .page page ∧ page.nextCursor = some text ∧ next = some text

/-- One cursor after another is handed out, from a first one to a last one. -/
abbrev StoreReply.LeadsTo (answer : Option String → StoreReply) :
    Option String → Option String → Prop :=
  Relation.ReflTransGen (HandsOut answer)

/-- From the beginning, the answers lead into a circle of at least two cursors. -/
def StoreReply.Circles (answer : Option String → StoreReply) : Prop :=
  ∃ first second, LeadsTo answer none first ∧ HandsOut answer first second ∧
    second ≠ first ∧ LeadsTo answer second first

/-- Whatever was asked before, the calls of a query are answered by their cursors. -/
def Store.AnswersBy (store : Store) (query : StoreQuery) (answer : Option String → StoreReply) :
    Prop :=
  ∀ history cursor, store history { query with cursor } = answer cursor

open StoreReply

section

variable {answer : Option String → StoreReply} {cursor next first second : Option String}

theorem StoreReply.HandsOut.eq {other : Option String} (hands : HandsOut answer cursor next)
    (too : HandsOut answer cursor other) : next = other := by
  obtain ⟨page, text, replied, handed, rfl⟩ := hands
  obtain ⟨page', text', replied', handed', rfl⟩ := too
  obtain rfl := StoreReply.page.inj (replied.symm.trans replied')
  exact handed.symm.trans handed'

/-- Every cursor that leads into a circle hands out a cursor other than itself, and that one
leads into the circle as well. -/
theorem StoreReply.LeadsTo.goesOn (leads : LeadsTo answer cursor first)
    (hands : HandsOut answer first second) (apart : second ≠ first)
    (back : LeadsTo answer second first) :
    ∃ next, HandsOut answer cursor next ∧ cursor ≠ next ∧ LeadsTo answer next first := by
  rcases Relation.ReflTransGen.cases_head leads with rfl | ⟨next, step, onward⟩
  · exact ⟨second, hands, apart.symm, back⟩
  · refine ⟨next, step, ?_, onward⟩
    rintro rfl
    have stuck : ∀ later, LeadsTo answer cursor later → later = cursor := by
      intro later reached
      induction reached with
      | refl => rfl
      | tail _ last ih =>
          subst ih
          exact last.eq step
    obtain rfl := stuck first onward
    exact apart (hands.eq step)

end

namespace Store

section

variable {store : Store} {query : StoreQuery} {answer : Option String → StoreReply}
  {history : History} {calls : List StoreQuery} {pages : List StorePage} {cursor : Option String}

theorem AnswersBy.handsOut {page : StorePage} {next : String}
    (answers : store.AnswersBy query answer)
    (replied : store history { query with cursor } = .page page)
    (goesOn : page.nextCursor = some next) : HandsOut answer cursor (some next) :=
  ⟨page, next, (answers _ _).symm.trans replied, goesOn, rfl⟩

/-- A trail leads from no cursor to the cursor where it stands. -/
theorem Trail.leadsTo (trail : store.Trail query history calls pages cursor)
    (answers : store.AnswersBy query answer) : LeadsTo answer none cursor := by
  induction trail with
  | start => exact .refl
  | more _ replied goesOn _ ih => exact ih.tail (answers.handsOut replied goesOn)

/-- Without a circle, the pages of a trail hand out different cursors, and from each of them the
trail leads on to where it stands. -/
theorem Trail.handed_nodup (trail : store.Trail query history calls pages cursor)
    (answers : store.AnswersBy query answer) (straight : ¬ Circles answer) :
    (pages.map (·.nextCursor)).Nodup ∧
      ∀ handed ∈ pages.map (·.nextCursor), LeadsTo answer handed cursor := by
  induction trail with
  | start => simp
  | @more calls pages cursor page next soFar replied goesOn fresh ih =>
      obtain ⟨distinct, onward⟩ := ih
      have step := answers.handsOut replied goesOn
      have new : some next ∉ pages.map (·.nextCursor) := fun before =>
        straight ⟨cursor, some next, soFar.leadsTo answers, step, fresh.symm, onward _ before⟩
      rw [List.map_append, List.map_singleton, goesOn]
      refine ⟨List.nodup_append_comm.mp (List.nodup_cons.mpr ⟨new, distinct⟩), ?_⟩
      intro handed member
      rcases List.mem_append.mp member with before | last
      · exact (onward handed before).tail step
      · rw [List.mem_singleton.mp last]

theorem Trail.pages_length (trail : store.Trail query history calls pages cursor) :
    pages.length = calls.length := by
  induction trail with
  | start => rfl
  | more _ _ _ _ ih => simp [ih]

/-- The pages of a trail hand out cursors that the answers hand out. -/
theorem Trail.handed_mem {cursors : Finset String}
    (trail : store.Trail query history calls pages cursor)
    (answers : store.AnswersBy query answer)
    (within : ∀ cursor next, HandsOut answer cursor (some next) → next ∈ cursors) :
    ∀ handed ∈ pages.map (·.nextCursor), handed ∈ cursors.map .some := by
  induction trail with
  | start => simp
  | @more calls pages cursor page next _ replied goesOn _ ih =>
      have member := within cursor next (answers.handsOut replied goesOn)
      simpa [goesOn, or_imp, forall_and] using ⟨by simpa using ih, member⟩

/-- Without a circle, a trail makes at most one call for each cursor that is handed out. -/
theorem Trail.length_le_card {cursors : Finset String}
    (trail : store.Trail query history calls pages cursor)
    (answers : store.AnswersBy query answer) (straight : ¬ Circles answer)
    (within : ∀ cursor next, HandsOut answer cursor (some next) → next ∈ cursors) :
    calls.length ≤ cursors.card := by
  obtain ⟨distinct, _⟩ := trail.handed_nodup answers straight
  calc calls.length = (pages.map (·.nextCursor)).toFinset.card := by
        rw [List.toFinset_card_of_nodup distinct, List.length_map, trail.pages_length]
    _ ≤ (cursors.map .some).card := Finset.card_le_card fun handed member =>
        trail.handed_mem answers within handed (List.mem_toFinset.mp member)
    _ = cursors.card := Finset.card_map _

/-- In a circle, a trail stands at no time where a reply ends the query. -/
theorem Trail.not_concludes (trail : store.Trail query history calls pages cursor)
    (answers : store.AnswersBy query answer) (circles : Circles answer)
    {outcome : Outcome (Except StoreError (List Value))} :
    ¬ (store (history ++ calls) { query with cursor }).Concludes query.location pages cursor
      outcome := by
  obtain ⟨first, second, leads, hands, apart, back⟩ := circles
  have inward : LeadsTo answer cursor first := by
    induction trail with
    | start => exact leads
    | more _ replied goesOn _ ih =>
        obtain ⟨_, step, _, onward⟩ := ih.goesOn hands apart back
        exact step.eq (answers.handsOut replied goesOn) ▸ onward
  obtain ⟨_, ⟨page, next, replied, handed, rfl⟩, fresh, _⟩ := inward.goesOn hands apart back
  rw [answers, replied]
  intro concludes
  cases concludes with
  | last final => exact absurd (handed.symm.trans final) (Option.some_ne_none next)
  | repeated again same => exact fresh (same.trans (again.symm.trans handed))

theorem unfinished_of_circles (answers : store.AnswersBy query answer)
    (circles : Circles answer) (history : History) (patience : Nat) :
    (store.drain patience (.start query) history).1 = .unfinished := by
  obtain ⟨calls, pages, cursor, trail, rfl | ⟨_, outcome, concludes⟩⟩ :=
    exists_trail store query history patience
  · exact congrArg Prod.fst (trail.drain_add 0)
  · exact absurd concludes (trail.not_concludes answers circles)

/-- A store that answers by the cursor, and hands out finitely many, lets every query come to an
end after at most one call for each of them and one more, unless the cursors lead into a circle
of at least two. In such a circle a query goes round for ever. -/
theorem drain_ends_unless_circles {cursors : Finset String}
    (answers : store.AnswersBy query answer)
    (within : ∀ cursor next, HandsOut answer cursor (some next) → next ∈ cursors)
    (history : History) :
    (¬ Circles answer → ∃ outcome calls, outcome ≠ .unfinished ∧
      calls.length ≤ cursors.card + 1 ∧ ∀ patience, calls.length ≤ patience →
        store.drain patience (.start query) history = (outcome, history ++ calls)) ∧
    (Circles answer → ∀ patience,
      (store.drain patience (.start query) history).1 = .unfinished) := by
  refine ⟨fun straight => ?_, fun circles => unfinished_of_circles answers circles history⟩
  obtain ⟨calls, pages, cursor, trail, spent | ⟨_, outcome, concludes⟩⟩ :=
    exists_trail store query history (cursors.card + 1)
  all_goals have few := trail.length_le_card answers straight within
  · omega
  · refine ⟨outcome, calls ++ [{ query with cursor }], concludes.ne_unfinished, by simpa using few,
      fun patience enough => ?_⟩
    rw [List.length_append] at enough
    rw [trail.drain_of_concludes concludes enough, List.append_assoc]

end

namespace Rounds

/-- After its first page, the store hands out two cursors in turn. -/
def answer : Option String → StoreReply
  | none => .page ⟨[.object [("id", .string "1")]], some "a"⟩
  | some "a" => .page ⟨[.object [("id", .string "2")]], some "b"⟩
  | some _ => .page ⟨[.object [("id", .string "3")]], some "a"⟩

def store : Store := fun _ query => answer query.cursor

def query : StoreQuery where
  context := ⟨"req", .null⟩
  location := ⟨"db", "Things"⟩
  statement := ⟨"SELECT c.id FROM c", []⟩
  cursor := none
  limit := none

theorem handsOut (cursor : Option String) (next : String)
    (hands : HandsOut answer cursor (some next)) : next ∈ ({"a", "b"} : Finset String) := by
  obtain ⟨page, text, replied, handed, same⟩ := hands
  obtain rfl := Option.some.inj same
  unfold answer at replied
  split at replied <;> cases replied <;> cases handed <;> decide

theorem circles : Circles answer :=
  ⟨some "a", some "b", .single ⟨_, _, rfl, rfl, rfl⟩, ⟨_, _, rfl, rfl, rfl⟩, by decide,
    .single ⟨_, _, rfl, rfl, rfl⟩⟩

theorem drain_ends_unless_circles_rounds : store.AnswersBy query answer ∧
    (∀ cursor next, HandsOut answer cursor (some next) → next ∈ ({"a", "b"} : Finset String)) ∧
    ∀ patience, (store.drain patience (.start query) []).1 = .unfinished :=
  ⟨fun _ _ => rfl, handsOut,
    (drain_ends_unless_circles (fun _ _ => rfl) handsOut []).2 circles⟩

/-- No error tells that a cursor was submitted before. -/
theorem never_drained : ¬ ∀ (store : Store) (query : StoreQuery)
    (answer : Option String → StoreReply) (cursors : Finset String),
    store.AnswersBy query answer →
    (∀ cursor next, HandsOut answer cursor (some next) → next ∈ cursors) →
    ∀ history, (store.drain (cursors.card + 1) (.start query) history).1 ≠ .unfinished := by
  intro ends
  exact ends store query answer {"a", "b"} (fun _ _ => rfl) handsOut []
    (unfinished_of_circles (fun _ _ => rfl) circles [] _)

end Rounds

end Store

end DocGraph
