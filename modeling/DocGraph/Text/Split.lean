namespace DocGraph.Text

/-- The beginning of a text that ends in a given way. -/
def beforeEnd? (ending text : List Char) : Option (List Char) :=
  if ending.isSuffixOf text then some (text.take (text.length - ending.length)) else none

/-- The parts of a text before and behind the last mark. -/
def splitAtLast? (mark : Char) (text : List Char) : Option (List Char × List Char) :=
  let backwards := text.reverse
  match backwards.dropWhile (· ≠ mark) with
  | _ :: before => some (before.reverse, (backwards.takeWhile (· ≠ mark)).reverse)
  | [] => none

/-- The parts of a text before and behind the first mark. -/
def splitAtFirst? (mark : Char) (text : List Char) : Option (List Char × List Char) :=
  match text.dropWhile (· ≠ mark) with
  | _ :: behind => some (text.takeWhile (· ≠ mark), behind)
  | [] => none

def extendFirst (char : Char) : List (List Char) → List (List Char)
  | first :: others => (char :: first) :: others
  | [] => [[char]]

/-- All pieces between the marks of a text; there is one more piece than marks. -/
def pieces (mark : Char) : List Char → List (List Char)
  | [] => [[]]
  | char :: rest =>
    if char = mark then [] :: pieces mark rest else extendFirst char (pieces mark rest)

/-- Whether a text stands anywhere in another. -/
def occursIn (part : List Char) : List Char → Bool
  | [] => part.isEmpty
  | char :: rest => part.isPrefixOf (char :: rest) || occursIn part rest

theorem beforeEnd?_eq_some_iff {ending text before : List Char} :
    beforeEnd? ending text = some before ↔ text = before ++ ending := by
  unfold beforeEnd?
  constructor
  · intro found
    split at found
    · next ends =>
      obtain ⟨front, rfl⟩ := List.isSuffixOf_iff_suffix.mp ends
      simp at found
      rw [found]
    · cases found
  · rintro rfl
    have ends : ending.isSuffixOf (before ++ ending) = true :=
      List.isSuffixOf_iff_suffix.mpr (List.suffix_append before ending)
    simp [ends]

theorem beforeEnd?_eq_none_iff {ending text : List Char} :
    beforeEnd? ending text = none ↔ ∀ before, text ≠ before ++ ending := by
  simp only [Option.eq_none_iff_forall_ne_some, ne_eq, beforeEnd?_eq_some_iff]

/-- What stands before the first mark holds no mark. -/
theorem splitAtFirst?_eq_some_iff {mark : Char} {text before behind : List Char} :
    splitAtFirst? mark text = some (before, behind) ↔
      text = before ++ mark :: behind ∧ mark ∉ before := by
  induction text generalizing before with
  | nil => simp [splitAtFirst?]
  | cons first rest ih =>
    by_cases same : first = mark
    · subst same
      cases before with
      | nil => simp [splitAtFirst?, eq_comm]
      | cons head tail =>
        simp [splitAtFirst?]
        intro here _
        exact fun different => absurd here different
    · have step : splitAtFirst? mark (first :: rest) =
          (splitAtFirst? mark rest).map fun (before, behind) => (first :: before, behind) := by
        simp only [splitAtFirst?, List.dropWhile_cons, List.takeWhile_cons, ne_eq, same,
          not_false_eq_true, decide_true, if_true]
        cases rest.dropWhile (fun char => decide ¬char = mark) <;> rfl
      rw [step, Option.map_eq_some_iff]
      constructor
      · rintro ⟨⟨front, back⟩, found, equal⟩
        cases equal
        obtain ⟨rfl, absent⟩ := ih.mp found
        exact ⟨rfl, by simp [absent, Ne.symm same]⟩
      · rintro ⟨equal, absent⟩
        cases before with
        | nil => simp [same] at equal
        | cons head tail =>
          simp only [List.cons_append, List.cons.injEq] at equal
          exact ⟨(tail, behind), ih.mpr ⟨equal.2, fun member => absent (.tail _ member)⟩,
            by rw [equal.1]⟩

theorem splitAtLast?_eq_reverse (mark : Char) (text : List Char) :
    splitAtLast? mark text = (splitAtFirst? mark text.reverse).map
      fun (behind, before) => (before.reverse, behind.reverse) := by
  unfold splitAtLast? splitAtFirst?
  dsimp only
  cases text.reverse.dropWhile (· ≠ mark) <;> rfl

/-- What stands behind the last mark holds no mark. -/
theorem splitAtLast?_eq_some_iff {mark : Char} {text before behind : List Char} :
    splitAtLast? mark text = some (before, behind) ↔
      text = before ++ mark :: behind ∧ mark ∉ behind := by
  rw [splitAtLast?_eq_reverse, Option.map_eq_some_iff]
  constructor
  · rintro ⟨⟨back, front⟩, found, equal⟩
    cases equal
    obtain ⟨whole, absent⟩ := splitAtFirst?_eq_some_iff.mp found
    refine ⟨?_, by simpa using absent⟩
    rw [← List.reverse_reverse text, whole]
    simp
  · rintro ⟨rfl, absent⟩
    exact ⟨(behind.reverse, before.reverse),
      splitAtFirst?_eq_some_iff.mpr ⟨by simp, by simpa using absent⟩, by simp⟩

theorem splitAtLast?_eq_none_iff {mark : Char} {text : List Char} :
    splitAtLast? mark text = none ↔ mark ∉ text := by
  constructor
  · intro unsplit member
    obtain ⟨behind, before, whole, absent⟩ :=
      List.eq_append_cons_of_mem (List.mem_reverse.mpr member)
    have cut : splitAtFirst? mark text.reverse = some (behind, before) :=
      splitAtFirst?_eq_some_iff.mpr ⟨whole, absent⟩
    rw [splitAtLast?_eq_reverse, cut] at unsplit
    cases unsplit
  · intro absent
    cases cut : splitAtLast? mark text with
    | none => rfl
    | some parts =>
        obtain ⟨whole, _⟩ := splitAtLast?_eq_some_iff.mp cut
        exact absurd (whole ▸ List.mem_append_cons_self) absent

end DocGraph.Text
