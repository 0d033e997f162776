import Mathlib.Tactic.Common

/-- A key of a store that keeps a value until the time at which it expires. -/
structure ExpiringKey (τ : Type) where
  stored : Option (τ × Nat)
  deriving DecidableEq

namespace ExpiringKey

variable {τ : Type}

def empty : ExpiringKey τ := ⟨none⟩

/-- The value that a reader finds. -/
def get (k : ExpiringKey τ) (now : Nat) : Option τ :=
  k.stored.bind fun entry => if now < entry.2 then some entry.1 else none

/-- Stores a value where no value is found. -/
def setIfAbsent (k : ExpiringKey τ) (now : Nat) (value : τ) (ttl : Nat) : Bool × ExpiringKey τ :=
  if (k.get now).isSome then (false, k) else (true, ⟨some (value, now + ttl)⟩)

/-- Gives a value a new time to live where it is the one found. -/
def expireIf [DecidableEq τ] (k : ExpiringKey τ) (now : Nat) (value : τ) (ttl : Nat) : Bool × ExpiringKey τ :=
  if k.get now = some value then (true, ⟨some (value, now + ttl)⟩) else (false, k)

/-- Deletes a value where it is the one found. -/
def deleteIf [DecidableEq τ] (k : ExpiringKey τ) (now : Nat) (value : τ) : Bool × ExpiringKey τ :=
  if k.get now = some value then (true, empty) else (false, k)

variable {k : ExpiringKey τ} {now later ttl expiry : Nat} {value other : τ}

@[simp] theorem get_empty : (empty : ExpiringKey τ).get now = none := rfl

theorem get_eq_some_iff : k.get now = some value ↔ ∃ expiry, k.stored = some (value, expiry) ∧ now < expiry := by
  unfold get
  rw [Option.bind_eq_some_iff]
  constructor
  · rintro ⟨⟨v, e⟩, stored, found⟩
    dsimp only at found
    split at found
    · rename_i early
      cases found
      exact ⟨e, stored, early⟩
    · cases found
  · rintro ⟨e, stored, early⟩
    exact ⟨(value, e), stored, if_pos early⟩

theorem get_stored (positive : 0 < ttl) : (⟨some (value, now + ttl)⟩ : ExpiringKey τ).get now = some value :=
  get_eq_some_iff.mpr ⟨now + ttl, rfl, by omega⟩

/-- What is found later was found before, where nothing was stored in between. -/
theorem get_of_later (found : k.get later = some value) (order : now ≤ later) : k.get now = some value := by
  obtain ⟨expiry, stored, early⟩ := get_eq_some_iff.mp found
  exact get_eq_some_iff.mpr ⟨expiry, stored, Nat.lt_of_le_of_lt order early⟩

theorem setIfAbsent_eq_true_iff : (k.setIfAbsent now value ttl).1 = true ↔ k.get now = none := by
  unfold setIfAbsent
  cases k.get now <;> simp

/-- A value that is found is not replaced. -/
theorem setIfAbsent_of_found (found : k.get now = some other) : k.setIfAbsent now value ttl = (false, k) := by
  unfold setIfAbsent
  rw [found, Option.isSome_some, if_pos rfl]

theorem setIfAbsent_of_absent (absent : k.get now = none) :
    k.setIfAbsent now value ttl = (true, ⟨some (value, now + ttl)⟩) := by
  unfold setIfAbsent
  rw [absent, Option.isSome_none, if_neg (by decide)]

/-- Who stored a value finds it. -/
theorem get_setIfAbsent (positive : 0 < ttl) (succeeded : (k.setIfAbsent now value ttl).1 = true) :
    (k.setIfAbsent now value ttl).2.get now = some value := by
  rw [setIfAbsent_of_absent (setIfAbsent_eq_true_iff.mp succeeded)]
  exact get_stored positive

variable [DecidableEq τ]

theorem expireIf_of_ne (differ : k.get now ≠ some value) : k.expireIf now value ttl = (false, k) := if_neg differ

theorem deleteIf_of_ne (differ : k.get now ≠ some value) : k.deleteIf now value = (false, k) := if_neg differ

theorem get_expireIf (positive : 0 < ttl) (succeeded : (k.expireIf now value ttl).1 = true) :
    (k.expireIf now value ttl).2.get now = some value := by
  unfold expireIf at *
  split at succeeded
  · rename_i found
    rw [if_pos found]
    exact get_stored positive
  · cases succeeded

end ExpiringKey
