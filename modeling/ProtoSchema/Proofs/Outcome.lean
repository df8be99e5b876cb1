import Mathlib.Data.List.Forall2

/-!
# Reading outcomes

A run is a chain of steps that may fail, so two kinds of question come back
in every statement about it. What does a success say of the steps? A chain
that succeeds has succeeded in every part, and a list of steps has given one
result for each of its elements, in their order. And what can a failure be?
`FailsWith` bounds the errors of a step, and the bound passes through
everything that chains are made of.
-/

namespace ProtoSchema

variable {ε α β : Type}

theorem bind_eq_ok {x : Except ε α} {f : α → Except ε β} {b : β} :
    x >>= f = .ok b ↔ ∃ a, x = .ok a ∧ f a = .ok b := by
  cases x with
  | error e => simp [bind, Except.bind]
  | ok a => simp [bind, Except.bind]

theorem bind_eq_error {x : Except ε α} {f : α → Except ε β} {e : ε} :
    x >>= f = .error e ↔ x = .error e ∨ ∃ a, x = .ok a ∧ f a = .error e := by
  cases x with
  | error e' => simp [bind, Except.bind]
  | ok a => simp [bind, Except.bind]

theorem map_bind {γ : Type} (x : Except ε α) (f : α → Except ε β) (g : β → γ) :
    (x >>= f).map g = x >>= fun a => (f a).map g := by
  cases x with
  | error e => rfl
  | ok a => rfl

theorem bind_map {γ : Type} (x : Except ε α) (g : α → β) (f : β → Except ε γ) :
    x.map g >>= f = x >>= fun a => f (g a) := by
  cases x with
  | error e => rfl
  | ok a => rfl

theorem toOption_bind (x : Except ε α) (f : α → Except ε β) :
    (x >>= f).toOption = x.toOption.bind fun a => (f a).toOption := by
  cases x with
  | error e => rfl
  | ok a => rfl

/-- A list of steps succeeds with one result per element. -/
theorem mapM_eq_ok {f : α → Except ε β} {l : List α} {l' : List β} :
    l.mapM f = .ok l' ↔ List.Forall₂ (fun a b => f a = .ok b) l l' := by
  induction l generalizing l' with
  | nil =>
      rw [List.mapM_nil, List.forall₂_nil_left_iff]
      exact ⟨fun h => (Except.ok.inj h).symm, fun h => congrArg _ h.symm⟩
  | cons a l ih =>
      rw [List.mapM_cons, bind_eq_ok, List.forall₂_cons_left_iff]
      constructor
      · rintro ⟨b, hb, h⟩
        obtain ⟨bs, hbs, h⟩ := bind_eq_ok.mp h
        exact ⟨b, bs, hb, ih.mp hbs, (Except.ok.inj h).symm⟩
      · rintro ⟨b, bs, hb, hbs, rfl⟩
        exact ⟨b, hb, bind_eq_ok.mpr ⟨bs, ih.mpr hbs, rfl⟩⟩

theorem exists_step_of_mapM {f : α → Except ε β} {l : List α} {l' : List β}
    (h : l.mapM f = .ok l') {b : β} (hb : b ∈ l') : ∃ a ∈ l, f a = .ok b := by
  induction mapM_eq_ok.mp h with
  | nil => cases hb
  | @cons a c l l' ha hrest ih =>
      rcases List.mem_cons.mp hb with rfl | hb
      · exact ⟨a, List.mem_cons_self, ha⟩
      · obtain ⟨x, hx, hxb⟩ := ih (mapM_eq_ok.mpr hrest) hb
        exact ⟨x, List.mem_cons_of_mem a hx, hxb⟩

theorem exists_result_of_mapM {f : α → Except ε β} {l : List α} {l' : List β}
    (h : l.mapM f = .ok l') {a : α} (ha : a ∈ l) : ∃ b ∈ l', f a = .ok b := by
  induction mapM_eq_ok.mp h with
  | nil => cases ha
  | @cons c b l l' hb hrest ih =>
      rcases List.mem_cons.mp ha with rfl | ha
      · exact ⟨b, List.mem_cons_self, hb⟩
      · obtain ⟨x, hx, hax⟩ := ih (mapM_eq_ok.mpr hrest) ha
        exact ⟨x, List.mem_cons_of_mem b hx, hax⟩

/-- A list of steps that succeeds has succeeded on every list that it starts
with, and with the results that it starts with. -/
theorem exists_prefix_of_mapM {f : α → Except ε β} {l l' : List α} {r' : List β}
    (hl : l <+: l') (h : l'.mapM f = .ok r') : ∃ r, l.mapM f = .ok r ∧ r <+: r' := by
  obtain ⟨rest, rfl⟩ := hl
  rw [List.mapM_append] at h
  obtain ⟨r, hr, h⟩ := bind_eq_ok.mp h
  obtain ⟨more, -, h⟩ := bind_eq_ok.mp h
  rw [← Except.ok.inj h]
  exact ⟨r, hr, List.prefix_append r more⟩

/-- What a step keeps of its element, a list of steps keeps in order. -/
theorem map_eq_of_mapM {γ : Type} {f : α → Except ε β} {l : List α} {l' : List β}
    (h : l.mapM f = .ok l') {g : α → γ} {g' : β → γ}
    (hg : ∀ {a b}, f a = .ok b → g' b = g a) : l'.map g' = l.map g := by
  induction mapM_eq_ok.mp h with
  | nil => rfl
  | cons ha hrest ih => rw [List.map_cons, List.map_cons, hg ha, ih (mapM_eq_ok.mpr hrest)]

/-- Steps that only differ by a change to their results differ so as a list. -/
theorem mapM_eq_map {γ : Type} {f : α → Except ε γ} {f' : α → Except ε β} {g : β → γ}
    (h : ∀ a, f a = (f' a).map g) (l : List α) :
    l.mapM f = (l.mapM f').map (List.map g) := by
  induction l with
  | nil => rfl
  | cons a l ih =>
      rw [List.mapM_cons, List.mapM_cons, h, ih, bind_map, map_bind]
      congr 1
      funext b
      rw [bind_map, map_bind]
      rfl

theorem foldlM_append_of_ok {f : β → α → Except ε β} {l : List α} {b b' : β}
    (h : l.foldlM f b = .ok b') (l' : List α) : (l ++ l').foldlM f b = l'.foldlM f b' := by
  rw [List.foldlM_append, h]
  rfl

/-- A fold that succeeds has succeeded at each of its elements. -/
theorem exists_step_of_foldlM {f : β → α → Except ε β} {l : List α} {b b' : β}
    (h : l.foldlM f b = .ok b') {a : α} (ha : a ∈ l) : ∃ c c', f c a = .ok c' := by
  induction l generalizing b with
  | nil => cases ha
  | cons x l ih =>
      rw [List.foldlM_cons] at h
      obtain ⟨b₁, h₁, h⟩ := bind_eq_ok.mp h
      rcases List.mem_cons.mp ha with rfl | ha
      · exact ⟨b, b₁, h₁⟩
      · exact ih h ha

/-- What every step of a fold keeps, the fold keeps. -/
theorem foldlM_preserves {P : β → Prop} {f : β → α → Except ε β}
    (hf : ∀ {b a b'}, f b a = .ok b' → P b → P b') {l : List α} {b b' : β}
    (h : l.foldlM f b = .ok b') (hb : P b) : P b' := by
  induction l generalizing b with
  | nil =>
      rw [← Except.ok.inj h]
      exact hb
  | cons a l ih =>
      rw [List.foldlM_cons] at h
      obtain ⟨b₁, h₁, h⟩ := bind_eq_ok.mp h
      exact ih h (hf h₁ hb)

theorem mapM_toList_of_vector {n : Nat} {f : α → Except ε β} {v : Vector α n}
    {w : Vector β n} (h : v.mapM f = .ok w) : v.toList.mapM f = .ok w.toList := by
  have harray : v.toArray.mapM f = .ok w.toArray := by
    rw [← Vector.toArray_mapM, h]
    rfl
  rw [Vector.toList, ← Array.toList_mapM, harray]
  rfl

/-- Every error of the outcome is one of `P`. -/
def FailsWith (P : ε → Prop) (x : Except ε α) : Prop :=
  ∀ e, x = .error e → P e

theorem FailsWith.ok {P : ε → Prop} (a : α) : FailsWith P (.ok a) := by
  intro e h
  cases h

theorem FailsWith.error {P : ε → Prop} {e : ε} (h : P e) :
    FailsWith P (.error e : Except ε α) := by
  intro e' h'
  rw [← Except.error.inj h']
  exact h

theorem FailsWith.bind {P : ε → Prop} {x : Except ε α} {f : α → Except ε β}
    (hx : FailsWith P x) (hf : ∀ a, x = .ok a → FailsWith P (f a)) :
    FailsWith P (x >>= f) := by
  intro e h
  rcases bind_eq_error.mp h with h | ⟨a, ha, h⟩
  · exact hx e h
  · exact hf a ha e h

theorem FailsWith.mapM {P : ε → Prop} {f : α → Except ε β}
    (hf : ∀ a, FailsWith P (f a)) (l : List α) : FailsWith P (l.mapM f) := by
  induction l with
  | nil => exact FailsWith.ok []
  | cons a l ih =>
      rw [List.mapM_cons]
      exact (hf a).bind fun b _ => ih.bind fun bs _ => FailsWith.ok (b :: bs)

theorem FailsWith.foldlM {P : ε → Prop} {f : β → α → Except ε β}
    (hf : ∀ b a, FailsWith P (f b a)) (l : List α) (b : β) :
    FailsWith P (l.foldlM f b) := by
  induction l generalizing b with
  | nil => exact FailsWith.ok b
  | cons a l ih =>
      rw [List.foldlM_cons]
      exact (hf b a).bind fun b' _ => ih b'

theorem FailsWith.mapError {ε' : Type} {P : ε → Prop} {f : ε' → ε}
    (hf : ∀ e, P (f e)) (x : Except ε' α) : FailsWith P (x.mapError f) := by
  cases x with
  | error e => exact FailsWith.error (hf e)
  | ok a => exact FailsWith.ok a

end ProtoSchema
