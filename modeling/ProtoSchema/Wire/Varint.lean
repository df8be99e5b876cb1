/-!
# Variable-length integers

An integer travels in groups of seven bits, the lowest group first; a byte
with its high bit set announces another one. At most ten bytes are read, and
the tenth may only hold the one bit that is left of sixty-four.
-/

namespace ProtoSchema.Wire

/-- The bytes of a message. -/
abbrev Bytes := List UInt8

/-- Reads an integer whose first `place` groups have been read before. -/
def readGroups (place : Nat) : Bytes → Option (Nat × Bytes)
  | [] => none
  | b :: rest =>
    if b < 128 then
      if place = 9 ∧ 1 < b then none else some (b.toNat, rest)
    else if 9 ≤ place then none
    else (readGroups (place + 1) rest).map fun (n, rest) => (b.toNat - 128 + 128 * n, rest)

/-- Reads an integer and gives it back with what follows. -/
def readVarint (input : Bytes) : Option (Nat × Bytes) :=
  readGroups 0 input

def writeVarint (n : Nat) : Bytes :=
  if n < 128 then [n.toUInt8]
  else (n % 128 + 128).toUInt8 :: writeVarint (n / 128)
termination_by n
decreasing_by omega

theorem readGroups_length {place : Nat} {input : Bytes} {n : Nat} {rest : Bytes}
    (h : readGroups place input = some (n, rest)) : rest.length < input.length := by
  induction input generalizing place n rest with
  | nil => simp [readGroups] at h
  | cons b bs ih =>
    simp only [readGroups] at h
    split at h
    · split at h
      · cases h
      · simp only [Option.some.injEq, Prod.mk.injEq] at h
        simp [← h.2]
    · split at h
      · cases h
      · obtain ⟨⟨m, r⟩, hm, hr⟩ := Option.map_eq_some_iff.1 h
        have := ih hm
        simp only [Prod.mk.injEq] at hr
        simp only [← hr.2, List.length_cons]
        omega

/-- Reading an integer takes at least one byte. -/
theorem readVarint_length {input : Bytes} {n : Nat} {rest : Bytes}
    (h : readVarint input = some (n, rest)) : rest.length < input.length :=
  readGroups_length h

end ProtoSchema.Wire
