import Mathlib.Data.List.Basic

/-- What happens to an item of a waiting list: it is enqueued, handed out,
cancelled while it waits, or ended from outside. -/
inductive WaitingEvent (α : Type)
  | enqueued (x : α)
  | returned (x : α)
  | cancelled (x : α)
  | ended (x : α)
  deriving DecidableEq

namespace WaitingEvent

variable {α : Type}

/-- An item is over once it was cancelled or ended. -/
def Closes (event : WaitingEvent α) (x : α) : Prop := event = .cancelled x ∨ event = .ended x

/-- Nothing that is over is handed out. Here, and in every history, the last event comes first. -/
def Final (history : List (WaitingEvent α)) : Prop :=
  history.Pairwise fun later earlier => ∀ x, earlier.Closes x → later ≠ .returned x

variable [DecidableEq α]

/-- Whether an item was enqueued and neither handed out nor cancelled since. -/
def awaited (x : α) : List (WaitingEvent α) → Bool
  | [] => false
  | .enqueued y :: earlier => x = y || awaited x earlier
  | .returned y :: earlier | .cancelled y :: earlier => x ≠ y && awaited x earlier
  | .ended _ :: earlier => awaited x earlier

end WaitingEvent

/-- A history and the list it is of: `waits` are the items in the list, `over`
those that are over. What waits is awaited, and what is awaited waits unless it is over. -/
structure WaitingBooks {α : Type} [DecidableEq α] (waits isOver : α → Prop) (history : List (WaitingEvent α)) : Prop where
  pending : ∀ x, waits x → WaitingEvent.awaited x history = true
  held : ∀ x, WaitingEvent.awaited x history = true → ¬ isOver x → waits x
  closed : ∀ event ∈ history, ∀ x, event.Closes x → isOver x
  matched : ∀ x, history.count (.returned x) + (WaitingEvent.awaited x history).toNat ≤ history.count (.enqueued x)
  final : WaitingEvent.Final history

namespace WaitingBooks

open WaitingEvent

variable {α : Type} [DecidableEq α] {waits waits' isOver over' : α → Prop} {history : List (WaitingEvent α)} {x y : α}

theorem start (empty : ∀ x, ¬ waits x) : WaitingBooks waits isOver ([] : List (WaitingEvent α)) where
  pending := fun x inside => absurd inside (empty x)
  held := fun x awaited => by cases awaited
  closed := fun event member => by cases member
  matched := fun x => Nat.le_refl _
  final := .nil

theorem count_le (books : WaitingBooks waits isOver history) (x : α) :
    history.count (.returned x) ≤ history.count (.enqueued x) := by
  have matched := books.matched x
  omega

/-- The list may lose items that are over, and items may be over without an event. -/
theorem keep (books : WaitingBooks waits isOver history) (fewer : ∀ x, waits' x → waits x)
    (kept : ∀ x, waits x → ¬ over' x → waits' x) (later : ∀ x, isOver x → over' x) : WaitingBooks waits' over' history where
  pending := fun x inside => books.pending x (fewer x inside)
  held := fun x awaited alive => kept x (books.held x awaited fun done => alive (later x done)) alive
  closed := fun event member x closes => later x (books.closed event member x closes)
  matched := books.matched
  final := books.final

theorem enqueue (books : WaitingBooks waits isOver history) (joins : ∀ y, waits' y ↔ y = x ∨ waits y) :
    WaitingBooks waits' isOver (.enqueued x :: history) where
  pending := by
    intro y inside
    simp only [awaited, Bool.or_eq_true, decide_eq_true_eq]
    exact ((joins y).mp inside).imp id (books.pending y)
  held := by
    intro y awaits alive
    simp only [awaited, Bool.or_eq_true, decide_eq_true_eq] at awaits
    exact (joins y).mpr (awaits.imp id fun before => books.held y before alive)
  closed := by
    intro event member y closes
    rcases List.mem_cons.mp member with rfl | before
    · rcases closes with closes | closes <;> cases closes
    · exact books.closed event before y closes
  matched := by
    intro y
    have matched := books.matched y
    have less := books.count_le y
    by_cases same : y = x
    · subst same
      simp only [awaited, List.count_cons, beq_self_eq_true, if_true, decide_true, Bool.true_or, Bool.toNat_true]
      simp only [beq_iff_eq, reduceCtorEq, if_false]
      omega
    · have other : (WaitingEvent.enqueued x == WaitingEvent.enqueued y) = false := by simpa using Ne.symm same
      simp only [awaited, same, decide_false, Bool.false_or, List.count_cons, other]
      simp only [beq_iff_eq, reduceCtorEq, if_false, Bool.false_eq_true]
      omega
  final := by
    refine List.pairwise_cons.mpr ⟨fun event member y closes => ?_, books.final⟩
    exact fun returned => by cases returned

/-- Leaving the list, by whichever event. -/
theorem leave {event : WaitingEvent α} (books : WaitingBooks waits isOver history) (waited : waits x)
    (fewer : ∀ y, waits' y → waits y ∧ y ≠ x) (kept : ∀ y, waits y → ¬ over' y → y ≠ x → waits' y)
    (later : ∀ y, isOver y → over' y) (leaves : event = .returned x ∧ ¬ isOver x ∨ event = .cancelled x ∧ over' x) :
    WaitingBooks waits' over' (event :: history) := by
  have awaits : ∀ y, awaited y (event :: history) = (y ≠ x && awaited y history) := by
    intro y
    rcases leaves with ⟨rfl, -⟩ | ⟨rfl, -⟩ <;> rfl
  refine ⟨fun y inside => ?_, fun y before alive => ?_, fun other member y closes => ?_, fun y => ?_, ?_⟩
  · rw [awaits, books.pending y (fewer y inside).1, decide_eq_true (fewer y inside).2]
    rfl
  · rw [awaits, Bool.and_eq_true, decide_eq_true_eq] at before
    exact kept y (books.held y before.2 fun done => alive (later y done)) alive before.1
  · rcases List.mem_cons.mp member with rfl | earlier
    · rcases leaves with ⟨rfl, -⟩ | ⟨rfl, done⟩
      · rcases closes with closes | closes <;> cases closes
      · rcases closes with closes | closes
        · cases closes
          exact done
        · cases closes
    · exact later y (books.closed other earlier y closes)
  · have matched := books.matched y
    have entered : (event :: history).count (.enqueued y) = history.count (.enqueued y) := by
      rcases leaves with ⟨rfl, -⟩ | ⟨rfl, -⟩ <;> exact List.count_cons_of_ne (by simp)
    rw [awaits, entered]
    by_cases same : y = x
    · subst same
      rw [books.pending y waited, Bool.toNat_true] at matched
      have once : (event :: history).count (.returned y) ≤ history.count (.returned y) + 1 := by
        rw [List.count_cons]
        split <;> omega
      simp only [ne_eq, not_true_eq_false, decide_false, Bool.false_and, Bool.toNat_false]
      omega
    · have unchanged : (event :: history).count (.returned y) = history.count (.returned y) := by
        rcases leaves with ⟨rfl, -⟩ | ⟨rfl, -⟩
        · exact List.count_cons_of_ne (by simpa using Ne.symm same)
        · exact List.count_cons_of_ne (by simp)
      rw [unchanged]
      simp only [ne_eq, same, not_false_eq_true, decide_true, Bool.true_and]
      exact matched
  · refine List.pairwise_cons.mpr ⟨fun other member y closes returned => ?_, books.final⟩
    rcases leaves with ⟨rfl, alive⟩ | ⟨rfl, -⟩
    · cases returned
      exact alive (books.closed other member x closes)
    · cases returned

/-- An item is ended from outside. -/
theorem finish (books : WaitingBooks waits isOver history) (done : isOver x) :
    WaitingBooks waits isOver (.ended x :: history) where
  pending := books.pending
  held := books.held
  closed := by
    intro event member y closes
    rcases List.mem_cons.mp member with rfl | before
    · rcases closes with closes | closes
      · cases closes
      · cases closes
        exact done
    · exact books.closed event before y closes
  matched := by
    intro y
    rw [List.count_cons_of_ne (by simp), List.count_cons_of_ne (by simp)]
    exact books.matched y
  final := by
    refine List.pairwise_cons.mpr ⟨fun event member y closes => ?_, books.final⟩
    exact fun returned => by cases returned

end WaitingBooks
