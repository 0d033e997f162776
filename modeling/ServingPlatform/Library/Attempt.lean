import Mathlib.Tactic.Common

/-- A computation on a state that may raise; what it did before raising stays done. -/
def Attempt (ε σ α : Type) : Type := σ → Except ε α × σ

namespace Attempt

variable {ε σ τ α β : Type}

def bind (m : Attempt ε σ α) (f : α → Attempt ε σ β) : Attempt ε σ β := fun s =>
  match m s with
  | (.ok a, s') => f a s'
  | (.error e, s') => (.error e, s')

instance : Monad (Attempt ε σ) where
  pure a := fun s => (.ok a, s)
  bind := bind

def raise (e : ε) : Attempt ε σ α := fun s => (.error e, s)

def read (f : σ → α) : Attempt ε σ α := fun s => (.ok (f s), s)

def update (f : σ → σ) : Attempt ε σ Unit := fun s => (.ok (), f s)

/-- An answer that does not depend on the state. -/
def answer (a : Except ε α) : Attempt ε σ α := fun s => (a, s)

/-- A computation on a part of the state. -/
def zoom (get : σ → τ) (put : τ → σ → σ) (m : Attempt ε τ α) : Attempt ε σ α := fun s =>
  ((m (get s)).1, put (m (get s)).2 s)

/-- `try` with an `except` clause, for the exceptions that have a handler. -/
def handle (m : Attempt ε σ α) (handler : ε → Option (Attempt ε σ α)) : Attempt ε σ α := fun s =>
  match m s with
  | (.ok a, s') => (.ok a, s')
  | (.error e, s') =>
    match handler e with
    | some caught => caught s'
    | none => (.error e, s')

/-- `try` with a `finally` clause, which does not raise. -/
def ensure (m : Attempt ε σ α) (cleanUp : σ → σ) : Attempt ε σ α := fun s => ((m s).1, cleanUp (m s).2)

section Runs

variable {m : Attempt ε σ α} {f : α → Attempt ε σ β} {s s' : σ} {a : α} {e : ε}

@[simp] theorem run_pure : (pure a : Attempt ε σ α) s = (.ok a, s) := rfl

@[simp] theorem run_raise : (raise e : Attempt ε σ α) s = (.error e, s) := rfl

@[simp] theorem run_read {g : σ → α} : (read g : Attempt ε σ α) s = (.ok (g s), s) := rfl

@[simp] theorem run_update {g : σ → σ} : (update g : Attempt ε σ Unit) s = (.ok (), g s) := rfl

@[simp] theorem run_answer {r : Except ε α} : (answer r : Attempt ε σ α) s = (r, s) := rfl

theorem bind_ok (first : m s = (.ok a, s')) : (m >>= f) s = f a s' := by
  change Attempt.bind m f s = f a s'
  rw [Attempt.bind, first]

theorem bind_error (first : m s = (.error e, s')) : (m >>= f) s = (.error e, s') := by
  change Attempt.bind m f s = (.error e, s')
  rw [Attempt.bind, first]

theorem zoom_run {get : σ → τ} {put : τ → σ → σ} {part : Attempt ε τ α} {result : Except ε α} {t : τ}
    (run : part (get s) = (result, t)) : zoom get put part s = (result, put t s) := by
  rw [zoom, run]

/-- On a part that can be read back and overwritten, a sequence is a sequence on the whole. -/
theorem zoom_bind {get : σ → τ} {put : τ → σ → σ} {part : Attempt ε τ α} {rest : α → Attempt ε τ β}
    (read : ∀ t s, get (put t s) = t) (overwrite : ∀ t t' s, put t' (put t s) = put t' s) :
    zoom get put (part >>= rest) = zoom get put part >>= fun a => zoom get put (rest a) := by
  funext s
  rcases run : part (get s) with ⟨e | a, t⟩
  · rw [bind_error (zoom_run run), zoom_run (bind_error run)]
  · rw [bind_ok (zoom_run run)]
    unfold zoom
    rw [bind_ok run, read, overwrite]

/-- A sequence gets past its first part, or ends with it. -/
theorem bind_cases (m : Attempt ε σ α) (f : α → Attempt ε σ β) (s : σ) :
    (∃ a s', m s = (.ok a, s') ∧ (m >>= f) s = f a s') ∨
      ∃ e s', m s = (.error e, s') ∧ (m >>= f) s = (.error e, s') := by
  rcases first : m s with ⟨e | a, s'⟩
  · exact Or.inr ⟨e, s', rfl, bind_error first⟩
  · exact Or.inl ⟨a, s', rfl, bind_ok first⟩

theorem bind_eq_ok {b : β} (run : (m >>= f) s = (.ok b, s')) :
    ∃ a middle, m s = (.ok a, middle) ∧ f a middle = (.ok b, s') := by
  rcases bind_cases m f s with ⟨a, middle, first, rest⟩ | ⟨e, middle, -, rest⟩
  · exact ⟨a, middle, first, rest.symm.trans run⟩
  · cases rest.symm.trans run

theorem handle_ok {handler : ε → Option (Attempt ε σ α)} (run : m s = (.ok a, s')) :
    handle m handler s = (.ok a, s') := by
  rw [handle, run]

theorem handle_caught {handler : ε → Option (Attempt ε σ α)} {caught : Attempt ε σ α}
    (run : m s = (.error e, s')) (found : handler e = some caught) : handle m handler s = caught s' := by
  simp only [handle, run, found]

theorem handle_uncaught {handler : ε → Option (Attempt ε σ α)} (run : m s = (.error e, s'))
    (missing : handler e = none) : handle m handler s = (.error e, s') := by
  simp only [handle, run, missing]

/-- A check that raises, before what follows it. -/
theorem check_post {c : Prop} [Decidable c] {after : Unit → Attempt ε σ β} {Q : Except ε β × σ → Prop}
    (next : ¬c → Q (after () s)) (raised : c → Q (.error e, s)) :
    Q ((if c then raise e >>= after else after ()) s) := by
  split
  · rename_i failing
    exact raised failing
  · rename_i passing
    exact next passing

end Runs

/-- The computation leaves a reading of the state as it was, also where it raises. -/
def Keeps (m : Attempt ε σ α) (reading : σ → τ) : Prop := ∀ s, reading (m s).2 = reading s

section Keeps

variable {m : Attempt ε σ α} {f : α → Attempt ε σ β} {reading : σ → τ}

theorem keeps_pure (a : α) : (pure a : Attempt ε σ α).Keeps reading := fun _ => rfl

theorem Keeps.bind (first : m.Keeps reading) (rest : ∀ a, (f a).Keeps reading) : (m >>= f).Keeps reading := by
  intro s
  have kept := first s
  rcases bind_cases m f s with ⟨a, middle, run, next⟩ | ⟨e, middle, run, next⟩
  · rw [run] at kept
    rw [next, rest a middle, kept]
  · rw [run] at kept
    rw [next, kept]

theorem Keeps.post {Q : Except ε α × σ → Prop} {s : σ} (kept : m.Keeps reading)
    (every : ∀ result s', reading s' = reading s → Q (result, s')) : Q (m s) :=
  every (m s).1 (m s).2 (kept s)

/-- After a first part that leaves a reading alone, a property has to hold of
what follows, and of an exception of the first part. -/
theorem Keeps.bind_post {Q : Except ε β × σ → Prop} {s : σ} (first : m.Keeps reading)
    (next : ∀ a s', reading s' = reading s → Q (f a s')) (raised : ∀ e s', reading s' = reading s → Q (.error e, s')) :
    Q ((m >>= f) s) := by
  have kept := first s
  rcases bind_cases m f s with ⟨a, middle, run, rest⟩ | ⟨e, middle, run, rest⟩
  · rw [run] at kept
    rw [rest]
    exact next a middle kept
  · rw [run] at kept
    rw [rest]
    exact raised e middle kept

/-- What follows keeps a reading of what came before. -/
theorem bind_reading (m : Attempt ε σ α) (rest : ∀ a, (f a).Keeps reading) (s : σ) :
    reading ((m >>= f) s).2 = reading (m s).2 := by
  rcases bind_cases m f s with ⟨a, middle, run, next⟩ | ⟨e, middle, run, next⟩
  · rw [next, run, rest a middle]
  · rw [next, run]

theorem keeps_raise (e : ε) : (raise e : Attempt ε σ α).Keeps reading := fun _ => rfl

theorem keeps_read (g : σ → α) : (read g : Attempt ε σ α).Keeps reading := fun _ => rfl

theorem Keeps.handle {handler : ε → Option (Attempt ε σ α)} (body : m.Keeps reading)
    (caught : ∀ e clause, handler e = some clause → clause.Keeps reading) : (handle m handler).Keeps reading := by
  intro s
  have kept := body s
  rcases run : m s with ⟨e | a, s'⟩
  · rw [run] at kept
    rcases Option.eq_none_or_eq_some (handler e) with missing | ⟨clause, found⟩
    · rw [handle_uncaught run missing, kept]
    · rw [handle_caught run found, caught e clause found s', kept]
  · rw [run] at kept
    rw [handle_ok run, kept]

theorem Keeps.ensure {cleanUp : σ → σ} (body : m.Keeps reading) (cleans : ∀ s, reading (cleanUp s) = reading s) :
    (ensure m cleanUp).Keeps reading :=
  fun s => (cleans _).trans (body s)

end Keeps

end Attempt
