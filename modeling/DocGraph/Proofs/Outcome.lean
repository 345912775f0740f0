namespace DocGraph

variable {ε α β : Type}

theorem bind_eq_ok {outcome : Except ε α} {next : α → Except ε β} {result : β} :
    outcome >>= next = .ok result ↔ ∃ value, outcome = .ok value ∧ next value = .ok result := by
  cases outcome <;> simp [bind, Except.bind]

theorem bind_eq_error {outcome : Except ε α} {next : α → Except ε β} {fault : ε} :
    outcome >>= next = .error fault ↔
      outcome = .error fault ∨ ∃ value, outcome = .ok value ∧ next value = .error fault := by
  cases outcome <;> simp [bind, Except.bind]

theorem map_eq_ok {outcome : Except ε α} {wrap : α → β} {result : β} :
    outcome.map wrap = .ok result ↔ ∃ value, outcome = .ok value ∧ wrap value = result := by
  cases outcome <;> simp [Except.map]

theorem map_eq_bind (outcome : Except ε α) (wrap : α → β) :
    outcome.map wrap = outcome >>= fun value => pure (wrap value) := by
  cases outcome <;> rfl

theorem error_ne_ok {fault : ε} {value : α} : (.error fault : Except ε α) ≠ .ok value := nofun

theorem pure_eq_ok {value result : α} :
    (pure value : Except ε α) = .ok result ↔ value = result := by
  simp [pure, Except.pure]

theorem mapError_eq_ok {δ : Type} {outcome : Except ε α} {change : ε → δ} {value : α} :
    outcome.mapError change = .ok value ↔ outcome = .ok value := by
  cases outcome with
  | error fault => exact ⟨nofun, nofun⟩
  | ok found =>
      constructor
      · intro same
        cases same
        rfl
      · intro same
        cases same
        rfl

theorem mapError_eq_error {δ : Type} {outcome : Except ε α} {change : ε → δ} {fault : δ} :
    outcome.mapError change = .error fault ↔
      ∃ cause, outcome = .error cause ∧ change cause = fault := by
  cases outcome with
  | error cause =>
      constructor
      · intro same
        cases same
        exact ⟨cause, rfl, rfl⟩
      · rintro ⟨_, same, rfl⟩
        cases same
        rfl
  | ok value =>
      constructor
      · intro same
        cases same
      · rintro ⟨_, same, _⟩
        cases same

/-- The error of a computation that failed. -/
def fault? : Except ε α → Option ε
  | .ok _ => none
  | .error fault => some fault

theorem fault?_eq_none {outcome : Except ε α} :
    fault? outcome = none ↔ ∃ value, outcome = .ok value := by
  cases outcome <;> simp [fault?]

theorem fault?_eq_some {outcome : Except ε α} {fault : ε} :
    fault? outcome = some fault ↔ outcome = .error fault := by
  cases outcome <;> simp [fault?]

@[simp] theorem fault?_ok (value : α) : fault? (.ok value : Except ε α) = none := rfl

@[simp] theorem fault?_error (fault : ε) : fault? (.error fault : Except ε α) = some fault := rfl

@[simp] theorem fault?_map (outcome : Except ε α) (wrap : α → β) :
    fault? (outcome.map wrap) = fault? outcome := by
  cases outcome <;> rfl

@[simp] theorem fault?_mapError {δ : Type} (outcome : Except ε α) (change : ε → δ) :
    fault? (outcome.mapError change) = (fault? outcome).map change := by
  cases outcome <;> rfl

theorem fault?_option_mapM {step : α → Except ε β} (value : Option α) :
    fault? (value.mapM step) = value.bind fun held => fault? (step held) := by
  cases value with
  | none => rfl
  | some held => exact fault?_map (step held) some

/-- Where later failures do not depend on what came before, the first failure counts. -/
theorem fault?_bind {outcome : Except ε α} {next : α → Except ε β} {later : Option ε}
    (same : ∀ value, fault? (next value) = later) :
    fault? (outcome >>= next) = (fault? outcome).or later := by
  cases outcome with
  | ok value => exact same value
  | error fault => rfl

theorem fault?_mapM {step : α → Except ε β} (list : List α) :
    fault? (list.mapM step) = list.findSome? fun item => fault? (step item) := by
  induction list with
  | nil => rfl
  | cons first rest ih =>
      have pass : ∀ value, fault? (rest.mapM step >>= fun values => pure (value :: values)) =
          rest.findSome? fun item => fault? (step item) := by
        intro value
        have kept : ∀ values, fault? (pure (value :: values) : Except ε (List β)) = none :=
          fun _ => rfl
        rw [fault?_bind kept, ih, Option.or_none]
      rw [List.mapM_cons, fault?_bind pass, List.findSome?_cons]
      cases fault? (step first) <;> rfl

/-- Both computations fail with one error or both succeed. -/
inductive Agree (related : α → β → Prop) : Except ε α → Except ε β → Prop
  | ok {left : α} {right : β} (values : related left right) : Agree related (.ok left) (.ok right)
  | error (fault : ε) : Agree related (.error fault) (.error fault)

/-- Computations agree if they go on alike after the same steps. -/
theorem Agree.of_bind {γ : Type} {related : β → γ → Prop} (shared : Except ε α)
    {left : α → Except ε β} {right : α → Except ε γ}
    (next : ∀ value, Agree related (left value) (right value)) :
    Agree related (shared >>= left) (shared >>= right) := by
  cases shared with
  | error fault => exact .error fault
  | ok value => exact next value

end DocGraph
