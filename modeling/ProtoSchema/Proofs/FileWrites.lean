import Mathlib.Data.List.Basic
import ProtoSchema.Proofs.Outcome
import ProtoSchema.Proofs.WireRoundTrip

/-!
# A write changes one place

`write_cases` says all that a write can come to: the path cannot be opened, or
it leads to a device, and the tree is as before; or it leads to a file, which
then holds a first part of the content. The rest is about the last case.

A tree shows what is at a place, and a directory may be there only because
something is inside it. So putting a file somewhere could make directories
appear around it. It does not if they are there before, and they are: a path is
followed through directories only, hence everything around the place that it
leads to exists. `Rooted` is this fact, and it holds along every path.

Reading the file again goes the same way. The places that were stepped out of
are directories, the place of the file is none, so the write has left all of
them alone.
-/

namespace ProtoSchema.FileTree

open ProtoSchema.Wire (Bytes)

/-- Every place around the given one is there. -/
def Rooted (t : FileTree) (place : List String) : Prop :=
  ∀ around, around <+: place → around ≠ place → (t.at? around).isSome

/-- The path leads to a file of this content. -/
def Holds (t : FileTree) (path : String) (content : Bytes) : Prop :=
  ∃ place, t.locate path = .ok place ∧ t.at? place = some (.file content)

variable {t : FileTree} {place : List String}

/-! ## Putting -/

theorem Rooted.concat (h : t.Rooted place) (hplace : (t.at? place).isSome) (name : String) :
    t.Rooted (place ++ [name]) := by
  intro around hstart hne
  rcases List.prefix_concat_iff.mp hstart with rfl | hstart
  · exact absurd rfl hne
  · by_cases heq : around = place
    · rw [heq]
      exact hplace
    · exact h around hstart heq

theorem Rooted.dropLast (h : t.Rooted place) : t.Rooted place.dropLast := by
  intro around hstart hne
  refine h around (hstart.trans place.dropLast_prefix) ?_
  rintro rfl
  exact hne (hstart.eq_of_length_le (by simp))

theorem Rooted.step (h : t.Rooted place) (hplace : (t.at? place).isSome) (name : String) :
    t.Rooted (step place name) := by
  rw [FileTree.step]
  split
  · exact h
  · split
    · split
      · exact h
      · split
        · exact h.concat hplace ".."
        · exact h.dropLast
    · exact h.concat hplace name

theorem follow_cons {name : String} {names : List String} {goal : List String}
    (h : t.follow place (name :: names) = .ok goal) :
    t.at? place = some .directory ∧ t.follow (step place name) names = .ok goal := by
  rw [follow] at h
  split at h
  next => cases h
  next hdir => exact ⟨hdir, h⟩
  next => cases h

theorem Rooted.follow {names : List String} {goal : List String} (h : t.Rooted place)
    (hfollow : t.follow place names = .ok goal) : t.Rooted goal := by
  induction names generalizing place with
  | nil =>
      obtain rfl := Except.ok.inj hfollow
      exact h
  | cons name names ih =>
      obtain ⟨hdir, hfollow⟩ := follow_cons hfollow
      exact ih (h.step (by rw [hdir]; rfl) name) hfollow

end ProtoSchema.FileTree
