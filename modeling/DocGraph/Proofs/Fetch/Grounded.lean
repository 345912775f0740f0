import DocGraph.Proofs.Fetch.Sessions

namespace DocGraph

open Json

namespace Loader

/-- Nothing is in flight, and the loads that wait are told apart by their tickets. -/
structure Grounded (loader : Loader) (batchSize : Nat) : Prop where
  size : loader.batchSize = batchSize
  landed : loader.flights = []
  armed : loader.timerArmed = true ↔ loader.pending ≠ []
  merged : ∀ bucket ∈ loader.pending, bucket.Merged
  apart : (loader.pendingWaiters.map (·.ticket)).Nodup
  early : ∀ waiter ∈ loader.pendingWaiters, waiter.ticket < loader.accepted

variable {store : Store} {batchSize : Nat} {loader after : Loader} {context : RequestContext}
  {request : LoadRequest} {waiter : Waiter}

theorem grounded_of_idle (size : loader.batchSize = batchSize) (landed : loader.flights = [])
    (none : loader.pending = []) (closed : loader.timerArmed = false) :
    loader.Grounded batchSize where
  size
  landed
  armed := by simp [none, closed]
  merged := by simp [none]
  apart := by simp [pendingWaiters, none]
  early := by simp [pendingWaiters, none]

theorem pendingWaiters_of_load (waits : loader.load context request = .waiting waiter after) :
    after.pendingWaiters.Perm (loader.pendingWaiters ++ [⟨loader.accepted, context, request⟩]) := by
  rcases loader.load_cases context request with ⟨_, _, answered⟩ | ⟨_, _, waiting⟩
  · cases answered.symm.trans waits
  · cases waiting.symm.trans waits
    exact Bucket.enter_waiters _ _ _

theorem Grounded.load (grounded : loader.Grounded batchSize)
    (waits : loader.load context request = .waiting waiter after) : after.Grounded batchSize := by
  have waiters := pendingWaiters_of_load waits
  rcases loader.load_cases context request with ⟨_, _, answered⟩ | ⟨asks, fits, waiting⟩
  · cases answered.symm.trans waits
  · cases waiting.symm.trans waits
    refine ⟨grounded.size, grounded.landed, ?_, ?_, ?_, ?_⟩
    · simpa using Bucket.enter_ne_nil _ _ _
    · intro bucket member
      rcases Bucket.mem_enter member with old | rfl | ⟨joined, old, takes, rfl⟩
      · exact grounded.merged bucket old
      · exact Bucket.merged_opened _
      · exact (grounded.merged joined old).join takes
    · rw [(waiters.map _).nodup_iff, List.map_append, List.nodup_append]
      refine ⟨grounded.apart, List.nodup_singleton _, fun ticket old other new same => ?_⟩
      obtain ⟨waiter, member, rfl⟩ := List.mem_map.mp old
      rw [List.map_singleton, List.mem_singleton] at new
      exact absurd (same.trans new) (Nat.ne_of_lt (grounded.early waiter member))
    · intro other member
      rcases List.mem_append.mp (waiters.mem_iff.mp member) with old | new
      · exact Nat.lt_succ_of_lt (grounded.early other old)
      · rw [List.mem_singleton.mp new]
        exact Nat.lt_succ_self _

theorem receive_pending (loader : Loader) (place : Nat) (reply : StoreReply) :
    (loader.receive place reply).2.batchSize = loader.batchSize ∧
      (loader.receive place reply).2.pending = loader.pending ∧
      (loader.receive place reply).2.timerArmed = loader.timerArmed := by
  unfold receive
  split
  · exact ⟨rfl, rfl, rfl⟩
  · split
    · exact ⟨rfl, rfl, rfl⟩
    · exact ⟨rfl, rfl, rfl⟩
    · exact ⟨rfl, rfl, rfl⟩

/-- Once all flights have landed, a window that was fired is empty and closed. -/
theorem grounded_of_settle {patience : Nat} {history last : History}
    {answers gained : List Answer} (size : loader.batchSize = batchSize)
    (none : loader.pending = []) (closed : loader.timerArmed = false)
    (settled : loader.settle store patience history answers =
      (.finished (gained, after), last)) : after.Grounded batchSize := by
  induction patience generalizing loader history answers with
  | zero => cases settled
  | succ patience ih =>
      simp only [settle] at settled
      split at settled
      · next landed =>
          cases settled
          exact grounded_of_idle size landed none closed
      · next flight _ _ =>
          obtain ⟨sameSize, samePending, sameTimer⟩ :=
            loader.receive_pending 0 (store history flight.drain.query)
          exact ih (sameSize.trans size) (samePending.trans none) (sameTimer.trans closed) settled

end Loader

variable {α : Type} {store : Store} {batchSize patience : Nat}

theorem Fetch.grounded_of_advance {fetch : Fetch α} {session after : Session}
    {outcome : Outcome (Stage α)} (grounded : session.loader.Grounded batchSize)
    (advanced : fetch.advance store patience session = (outcome, after)) :
    after.loader.Grounded batchSize := by
  induction fetch generalizing session with
  | done result =>
      cases advanced
      exact grounded
  | query asked next ih =>
      simp only [advance] at advanced
      split at advanced
      · exact ih _ (by exact grounded) advanced
      · exact ih _ (by exact grounded) advanced
      · cases advanced
        exact grounded
  | drain asked next ih =>
      simp only [advance] at advanced
      split at advanced
      · exact ih _ (by exact grounded) advanced
      · cases advanced
        exact grounded
      · cases advanced
        exact grounded
  | load context request next ih =>
      simp only [advance] at advanced
      split at advanced
      · exact ih _ grounded advanced
      · next waits =>
          cases advanced
          exact grounded.load waits

theorem Stage.grounded_of_advanceReady {ready : Stage α → Option (Fetch α)}
    {stages : List (Stage α)} {session after : Session} {outcome : Outcome (List (Stage α))}
    (grounded : session.loader.Grounded batchSize)
    (advanced : advanceReady store patience ready stages session = (outcome, after)) :
    after.loader.Grounded batchSize := by
  induction stages generalizing session outcome with
  | nil =>
      cases advanced
      exact grounded
  | cons stage rest ih =>
      have onward : ∀ {first : Stage α} {between : Session},
          between.loader.Grounded batchSize →
          ((advanceReady store patience ready rest between).1.map (first :: ·),
            (advanceReady store patience ready rest between).2) = (outcome, after) →
          after.loader.Grounded batchSize := by
        intro first between held advanced
        cases advanced
        exact ih held rfl
      simp only [advanceReady] at advanced
      cases allowed : ready stage with
      | none =>
          simp only [allowed] at advanced
          exact onward grounded advanced
      | some fetch =>
          simp only [allowed] at advanced
          cases stepped : fetch.advance store patience session with
          | mk reached between =>
              have held := Fetch.grounded_of_advance grounded stepped
              rw [stepped] at advanced
              cases reached with
              | finished first => exact onward held advanced
              | aborted =>
                  cases advanced
                  exact held
              | unfinished =>
                  cases advanced
                  exact held

theorem Schedule.grounded_of_run {batchWindow events : Nat} {schedule : Schedule α}
    {outcome : Outcome (List α)} {after : Session}
    (grounded : schedule.session.loader.Grounded batchSize)
    (ran : schedule.run store batchWindow patience events = (outcome, after)) :
    after.loader.Grounded batchSize := by
  induction events generalizing schedule with
  | zero =>
      cases ran
      exact grounded
  | succ events ih =>
      simp only [run] at ran
      split at ran
      · split at ran
        · cases ran
          exact grounded
        · cases ran
          exact grounded
      · split at ran
        · next advanced => exact ih (Stage.grounded_of_advanceReady grounded advanced) ran
        · next advanced =>
            cases ran
            exact Stage.grounded_of_advanceReady grounded advanced
        · next advanced =>
            cases ran
            exact Stage.grounded_of_advanceReady grounded advanced
      · have size : schedule.session.loader.fire.batchSize = batchSize := grounded.size
        split at ran
        · next answers loader history settled =>
            have landed : Loader.Grounded (Session.mk loader history).loader batchSize :=
              Loader.grounded_of_settle size rfl rfl settled
            split at ran
            · next advanced => exact ih (Stage.grounded_of_advanceReady landed advanced) ran
            · next advanced =>
                cases ran
                exact Stage.grounded_of_advanceReady landed advanced
            · next advanced =>
                cases ran
                exact Stage.grounded_of_advanceReady landed advanced
        · cases ran
          exact grounded
        · cases ran
          exact grounded

/-- However runs end, a session is grounded after them. -/
theorem Session.Reached.grounded {settings : LoaderSettings} {session : Session}
    (reached : Session.Reached store settings session) :
    session.loader.Grounded settings.batchSize := by
  induction reached with
  | new => exact Loader.grounded_of_idle rfl rfl rfl rfl
  | run _ ran ih => exact Schedule.grounded_of_run (by exact ih) ran
  | asked _ _ ih => exact ih

end DocGraph
