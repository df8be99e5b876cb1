/-!
# Letters and their case

Letters are converted by their code points, where a capital stands 32 before its
small letter. So what a conversion does to a character is arithmetic, and the
same goes for two conversions one after the other.
-/

namespace ProtoSchema

/-! ## Classes of letters -/

theorem isLower_iff {c : Char} : c.isLower ↔ 97 ≤ c.toNat ∧ c.toNat ≤ 122 := by
  show (decide _ && decide _) = true ↔ _
  rw [Bool.and_eq_true, decide_eq_true_eq, decide_eq_true_eq]
  exact Iff.rfl

theorem isUpper_iff {c : Char} : c.isUpper ↔ 65 ≤ c.toNat ∧ c.toNat ≤ 90 := by
  show decide _ = true ↔ _
  rw [decide_eq_true_eq]
  exact Iff.rfl

theorem isAlpha_iff {c : Char} : c.isAlpha ↔ c.isUpper ∨ c.isLower := by
  show (c.isUpper || c.isLower) = true ↔ _
  rw [Bool.or_eq_true]

theorem isAlpha_of_isUpper {c : Char} (h : c.isUpper) : c.isAlpha :=
  isAlpha_iff.mpr (.inl h)

theorem isAlpha_of_isLower {c : Char} (h : c.isLower) : c.isAlpha :=
  isAlpha_iff.mpr (.inr h)

theorem not_isUpper_of_isLower {c : Char} (h : c.isLower) : ¬ c.isUpper := by
  rw [isLower_iff] at h
  rw [isUpper_iff]
  omega

theorem not_isDigit_of_isAlpha {c : Char} (h : c.isAlpha) : ¬ c.isDigit := by
  have hnine : '9'.toNat = 57 := rfl
  rw [isAlpha_iff, isUpper_iff, isLower_iff] at h
  rw [Char.isDigit_iff_toNat, hnine]
  omega

/-! ## Conversions -/

theorem toLower_of_not_isUpper {c : Char} (h : ¬ c.isUpper) : c.toLower = c :=
  dif_neg fun hc => h (decide_eq_true hc)

theorem toNat_toLower_of_isUpper {c : Char} (h : c.isUpper) : c.toLower.toNat = c.toNat + 32 := by
  have hbounds := isUpper_iff.mp h
  have hlower : c.toLower.toNat = (c.val + 32).toNat :=
    congrArg Char.toNat (dif_pos (of_decide_eq_true h))
  have hval : c.val.toNat = c.toNat := rfl
  have hmark : UInt32.toNat 32 = 32 := rfl
  rw [hlower, UInt32.toNat_add, hval, hmark]
  omega

theorem toUpper_of_not_isLower {c : Char} (h : ¬ c.isLower) : c.toUpper = c :=
  dif_neg fun hc => h (Bool.and_eq_true_iff.mpr ⟨decide_eq_true hc.1, decide_eq_true hc.2⟩)

theorem toNat_toUpper_of_isLower {c : Char} (h : c.isLower) : c.toUpper.toNat = c.toNat - 32 := by
  have hbounds := isLower_iff.mp h
  have hlower := Bool.and_eq_true_iff.mp h
  have hupper : c.toUpper.toNat = (c.val + ('A'.val - 'a'.val)).toNat := by
    show (dite _ _ _ : Char).toNat = _
    rw [dif_pos ⟨of_decide_eq_true hlower.1, of_decide_eq_true hlower.2⟩]
    exact rfl
  have hval : c.val.toNat = c.toNat := rfl
  -- The difference of the two letters wraps around.
  have hmark : ('A'.val - 'a'.val).toNat = 2 ^ 32 - 32 := rfl
  rw [hupper, UInt32.toNat_add, hval, hmark]
  omega

theorem isAlpha_toLower (c : Char) : c.toLower.isAlpha = c.isAlpha := by
  by_cases h : c.isUpper
  · have hnat := toNat_toLower_of_isUpper h
    rw [Bool.eq_iff_iff, isAlpha_iff, isAlpha_iff, isUpper_iff, isLower_iff, hnat]
    rw [isUpper_iff] at h ⊢
    omega
  · rw [toLower_of_not_isUpper h]

theorem not_isUpper_toLower (c : Char) : ¬ c.toLower.isUpper := by
  by_cases h : c.isUpper
  · rw [isUpper_iff, toNat_toLower_of_isUpper h]
    rw [isUpper_iff] at h
    omega
  · rwa [toLower_of_not_isUpper h]

theorem isUpper_toUpper {c : Char} (h : c.isAlpha) : c.toUpper.isUpper := by
  rw [isAlpha_iff] at h
  by_cases hc : c.isLower
  · rw [isUpper_iff, toNat_toUpper_of_isLower hc]
    rw [isLower_iff] at hc
    omega
  · rw [toUpper_of_not_isLower hc]
    exact h.resolve_right hc

theorem not_isLower_toUpper (c : Char) : ¬ c.toUpper.isLower := by
  by_cases h : c.isLower
  · rw [isLower_iff, toNat_toUpper_of_isLower h]
    rw [isLower_iff] at h
    omega
  · rwa [toUpper_of_not_isLower h]

theorem toUpper_toLower (c : Char) : c.toLower.toUpper = c.toUpper := by
  by_cases h : c.isUpper
  · have hnat := toNat_toLower_of_isUpper h
    rw [isUpper_iff] at h
    have hlower : c.toLower.isLower := isLower_iff.mpr (by omega)
    rw [toUpper_of_not_isLower (c := c) (by rw [isLower_iff]; omega), ← Char.toNat_inj,
      toNat_toUpper_of_isLower hlower]
    omega
  · rw [toLower_of_not_isUpper h]

theorem toLower_toUpper (c : Char) : c.toUpper.toLower = c.toLower := by
  by_cases h : c.isLower
  · have hnat := toNat_toUpper_of_isLower h
    rw [toLower_of_not_isUpper (not_isUpper_of_isLower h), ← Char.toNat_inj,
      toNat_toLower_of_isUpper (isUpper_toUpper (isAlpha_of_isLower h))]
    rw [isLower_iff] at h
    omega
  · rw [toUpper_of_not_isLower h]

theorem toLower_eq_self_iff {c : Char} : c.toLower = c ↔ ¬ c.isUpper := by
  constructor
  · intro h
    rw [← h]
    exact not_isUpper_toLower c
  · exact toLower_of_not_isUpper

theorem toUpper_eq_self_iff {c : Char} : c.toUpper = c ↔ ¬ c.isLower := by
  constructor
  · intro h
    rw [← h]
    exact not_isLower_toUpper c
  · exact toUpper_of_not_isLower

/-- Only letters come from making another character small. -/
theorem toLower_eq_iff {c d : Char} (hd : ¬ d.isAlpha) : c.toLower = d ↔ c = d := by
  constructor
  · intro h
    have hc : ¬ c.isAlpha := by rwa [← isAlpha_toLower, h]
    rwa [toLower_of_not_isUpper fun hu => hc (isAlpha_of_isUpper hu)] at h
  · rintro rfl
    exact toLower_of_not_isUpper fun hu => hd (isAlpha_of_isUpper hu)

/-- Only capitals come from raising another character. -/
theorem eq_of_toUpper_eq {c d : Char} (hd : ¬ d.isUpper) (h : c.toUpper = d) : c = d := by
  by_cases hc : c.isLower
  · exact absurd (h ▸ isUpper_toUpper (isAlpha_of_isLower hc)) hd
  · rwa [toUpper_of_not_isLower hc] at h

end ProtoSchema
