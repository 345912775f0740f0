import DocGraph.Proofs.Fetch.Supplied
import DocGraph.Proofs.Store.Accessors

namespace DocGraph

namespace Page

variable {store : Store} {page now : Page} {history later : History}

/-- A page after some accesses, with any other queries between them. -/
inductive Later (store : Store) (page : Page) (history : History) : Page → History → Prop
  | fresh : Later store page history page history
  | accessed {now : Page} {later : History} (before : Later store page history now later)
      (accessor : Accessor) : Later store page history
        (now.access store later accessor).page (now.access store later accessor).history
  | asked {now : Page} {later : History} (before : Later store page history now later)
      (queries : History) : Later store page history now (later ++ queries)

/-- A window is what came with the rows of a call that the page made. -/
def Tells (store : Store) (page : Page) (history : History) (window : Window) : Prop :=
  ∃ rows, store.Made history ⟨page.windowQuery, .page rows⟩ ∧ window = windowOf page.request rows

structure Keeps (store : Store) (page now : Page) (later : History) : Prop where
  context : now.context = page.context
  request : now.request = page.request
  window : ∀ window, now.window = some window → page.Tells store later window

theorem Tells.mono {window : Window} (tells : page.Tells store history window)
    (grown : history <+: later) : page.Tells store later window := by
  obtain ⟨rows, made, same⟩ := tells
  exact ⟨rows, made.mono grown, same⟩

theorem Keeps.mono (keeps : Keeps store page now history) (grown : history <+: later) :
    Keeps store page now later :=
  ⟨keeps.context, keeps.request, fun window held => (keeps.window window held).mono grown⟩

/-- Whether it is read now or was read before, the window is that of a call. -/
theorem Keeps.readWindow (keeps : Keeps store page now later) :
    Keeps store page (now.readWindow store later).page (now.readWindow store later).history ∧
      ∀ window, (now.readWindow store later).outcome = .finished (.ok window) →
        page.Tells store (now.readWindow store later).history window := by
  have query : now.windowQuery = page.windowQuery := by
    simp only [windowQuery, keeps.context, keeps.request]
  unfold Page.readWindow
  split
  · next held =>
      refine ⟨keeps, fun window same => ?_⟩
      cases same
      exact keeps.window _ held
  · simp only
    have grown : later <+: later ++ [now.windowQuery] := List.prefix_append _ _
    split
    · next rows replied =>
        have tells : page.Tells store (later ++ [now.windowQuery]) (windowOf now.request rows) := by
          rw [query] at replied ⊢
          exact ⟨rows, Store.made_now later replied, by rw [keeps.request]⟩
        refine ⟨⟨keeps.context, keeps.request, fun window held => ?_⟩, fun window same => ?_⟩
        · cases held
          exact tells
        · cases same
          exact tells
    · exact ⟨keeps.mono grown, fun _ same => by cases same⟩
    · exact ⟨keeps.mono grown, fun _ same => by cases same⟩

/-- A count leaves the window as it is. -/
theorem Keeps.readTotal (keeps : Keeps store page now later) :
    Keeps store page (now.readTotal store later).page (now.readTotal store later).history := by
  unfold Page.readTotal
  split
  · exact keeps
  · simp only
    have onward := keeps.mono (List.prefix_append later [now.countQuery])
    split
    · split
      · exact ⟨onward.context, onward.request, onward.window⟩
      · exact onward
    · exact onward
    · exact onward

theorem Keeps.access (keeps : Keeps store page now later) (accessor : Accessor) :
    Keeps store page (now.access store later accessor).page
      (now.access store later accessor).history := by
  cases accessor with
  | cursor => exact keeps
  | items => exact keeps.readWindow.1
  | nextCursor => exact keeps.readWindow.1
  | total => exact keeps.readTotal

theorem keeps_of_later (unread : page.window = none)
    (reached : page.Later store history now later) :
    Keeps store page now later := by
  induction reached with
  | fresh => exact ⟨rfl, rfl, fun window held => nomatch unread.symm.trans held⟩
  | accessed _ accessor ih => exact ih.access accessor
  | asked _ queries ih => exact ih.mono (List.prefix_append _ _)

/-- The items of a page are rows of its window query, whenever they are read. -/
theorem items_of_later (unread : page.window = none) (reached : page.Later store history now later)
    {items : List Record} (read : (now.items store later).outcome = .finished (.ok items)) :
    ∃ rows, store.Made (now.items store later).history ⟨page.windowQuery, .page rows⟩ ∧
      items = rows.items.map (Record.ofRow .list page.request.typename page.request.location) := by
  obtain ⟨_, tells⟩ := (keeps_of_later unread reached).readWindow
  simp only [Page.items, Access.map] at read ⊢
  cases outcome : (now.readWindow store later).outcome with
  | finished result =>
      cases result with
      | error error => simp [outcome, Outcome.map, Except.map] at read
      | ok window =>
          obtain ⟨rows, made, rfl⟩ := tells window outcome
          rw [outcome] at read
          cases read
          exact ⟨rows, made, rfl⟩
  | _ => simp [outcome, Outcome.map] at read

end Page

end DocGraph
