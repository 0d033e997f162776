import Mathlib.Data.List.Basic
import ServingPlatform.Library.Dict

/-- Each value of a dictionary owns some things: no two own the same, and what is free is owned by none. -/
structure Exclusive {κ ν α : Type} [DecidableEq κ] (owns : ν → List α) (d : Dict κ ν) (free : List α) : Prop where
  nodup : ∀ {k v}, d.get? k = some v → (owns v).Nodup
  apart : ∀ {j k v w}, d.get? j = some v → d.get? k = some w → j ≠ k → ∀ x ∈ owns v, x ∉ owns w
  free : ∀ {k v}, d.get? k = some v → ∀ x ∈ owns v, x ∉ free

namespace Exclusive

variable {κ ν α : Type} [DecidableEq κ] {owns : ν → List α} {d : Dict κ ν} {free free' : List α} {k : κ} {v w : ν} {x : α}

/-- Nobody but the holder of a key owns a thing. -/
def OnlyBy (owns : ν → List α) (d : Dict κ ν) (k : κ) (x : α) : Prop := ∀ j v, d.get? j = some v → j ≠ k → x ∉ owns v

theorem start : Exclusive owns (.empty : Dict κ ν) free where
  nodup found := by cases found
  apart found := by cases found
  free found := by cases found

theorem onlyBy_of_owned (exclusive : Exclusive owns d free) (found : d.get? k = some v) (owned : x ∈ owns v) :
    OnlyBy owns d k x := fun _ _ other differ inside => exclusive.apart other found differ x inside owned

theorem onlyBy_of_free (exclusive : Exclusive owns d free) (unowned : x ∈ free) : OnlyBy owns d k x :=
  fun _ _ other _ inside => exclusive.free other x inside unowned

/-- A new value for a key: what it owns and what is then free belongs to nobody else. -/
theorem put (exclusive : Exclusive owns d free) (nodup : (owns w).Nodup) (owned : ∀ x ∈ owns w, OnlyBy owns d k x)
    (freed : ∀ x ∈ free', x ∉ owns w ∧ OnlyBy owns d k x) : Exclusive owns (d.insert k w) free' where
  nodup := by
    intro j v found
    rw [Dict.get?_insert] at found
    split at found
    · cases found
      exact nodup
    · exact exclusive.nodup found
  apart := by
    intro i j a b first second differ x inside
    rw [Dict.get?_insert] at first second
    split at first <;> split at second
    · rename_i here there
      exact absurd (here.trans there.symm) differ
    · rename_i there
      cases first
      exact owned x inside j b second there
    · rename_i here _
      cases second
      exact fun both => owned x both i a first here inside
    · exact exclusive.apart first second differ x inside
  free := by
    intro j v found x inside unowned
    rw [Dict.get?_insert] at found
    split at found
    · cases found
      exact (freed x unowned).1 inside
    · rename_i differ
      exact (freed x unowned).2 j v found differ inside

/-- A key goes: what is then free belongs to nobody else. -/
theorem drop (exclusive : Exclusive owns d free) (freed : ∀ x ∈ free', OnlyBy owns d k x) :
    Exclusive owns (d.erase k) free' where
  nodup := by
    intro j v found
    rw [Dict.get?_erase] at found
    split at found
    · cases found
    · exact exclusive.nodup found
  apart := by
    intro i j a b first second differ x inside
    rw [Dict.get?_erase] at first second
    split at first <;> split at second
    · cases first
    · cases first
    · cases second
    · exact exclusive.apart first second differ x inside
  free := by
    intro j v found x inside unowned
    rw [Dict.get?_erase] at found
    split at found
    · cases found
    · rename_i differ
      exact freed x unowned j v found differ inside

/-- With less that is free. -/
theorem mono (exclusive : Exclusive owns d free) (fewer : ∀ x ∈ free', x ∈ free) : Exclusive owns d free' :=
  ⟨exclusive.nodup, exclusive.apart, fun found x inside unowned => exclusive.free found x inside (fewer x unowned)⟩

end Exclusive
