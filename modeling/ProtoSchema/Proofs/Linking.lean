import ProtoSchema.Pool.Link
import ProtoSchema.Proofs.Outcome
import ProtoSchema.Synthesis

/-!
# Linked pools

A pool keeps the written type of a field beside its kind, and nothing in its
type says that the two fit together. In a pool that comes from linking they do
for messages: a name that leads to a message sets both, so a field that holds
a message has the type of a message or of a group, and its expression is a
reference.

For enums there is an exception. A group that names an enum stays a group, and
so it has no expression at all.
-/

namespace ProtoSchema.Pool

open ProtoSchema.Descriptor (FieldType)

/-- The type of a field that holds a message is that of a message or a
group. -/
def Field.KindAgrees {m e : Nat} (f : Field m e) : Prop :=
  ∀ j, f.kind = .message j → f.type = .ok .message ∨ f.type = .ok .group

def KindsAgree (p : Pool) : Prop :=
  ∀ i, ∀ f ∈ (p.message i).fields, f.KindAgrees

theorem rawType_of_resolveType {d : Declared} {v : View} {scope : String}
    {path : List Nat} {f : Descriptor.Field} {raw : Option Int} {j : Fin d.m}
    (h : d.resolveType v scope path f = .ok (raw, .message j)) :
    raw = some FieldType.message.number ∨ raw = some FieldType.group.number := by
  rw [Declared.resolveType] at h
  split at h
  · -- A field without a type name is a scalar.
    simp only [] at h
    split at h <;> cases h
  · obtain ⟨entry, -, h⟩ := bind_eq_ok.mp h
    cases hm : d.messageIndex? entry.name with
    | some i =>
        simp only [hm] at h
        obtain ⟨rfl, -⟩ := Prod.mk.inj (Except.ok.inj h)
        by_cases hgroup : f.type = some FieldType.group.number
        · exact Or.inr (by rw [if_pos hgroup])
        · exact Or.inl (by rw [if_neg hgroup])
    | none =>
        simp only [hm] at h
        split at h <;> cases h

theorem type_of_rawType {m e : Nat} {f : Field m e} {t : FieldType}
    (h : f.rawType = some t.number) : f.type = .ok t := by
  rw [Field.type, h]
  show typeOfNumber f.fullName t.number = .ok t
  rw [typeOfNumber, FieldType.ofNumber?_number]

theorem mem_insertByNumber {α : Type} {n : Int} {a : α} {l : List (Int × α)}
    {x : Int × α} (h : x ∈ insertByNumber n a l) : x = (n, a) ∨ x ∈ l := by
  induction l with
  | nil => exact Or.inl (List.mem_singleton.mp h)
  | cons b l ih =>
      rw [insertByNumber] at h
      split at h
      · exact List.mem_cons.mp h
      · rcases List.mem_cons.mp h with rfl | h
        · exact Or.inr List.mem_cons_self
        · exact (ih h).imp_right (List.mem_cons_of_mem b)

theorem kindAgrees_linkField {d : Declared} {v : View} {item : MessageItem}
    {linked linked' : Linked d.m d.e} {f : Descriptor.Field} {j : Nat}
    (h : linkField d v item linked f j = .ok linked')
    (hl : ∀ x ∈ linked.fields, x.2.KindAgrees) : ∀ x ∈ linked'.fields, x.2.KindAgrees := by
  obtain ⟨-, -, h⟩ := bind_eq_ok.mp h
  obtain ⟨⟨raw, kind⟩, htype, h⟩ := bind_eq_ok.mp h
  obtain ⟨-, -, h⟩ := bind_eq_ok.mp h
  obtain ⟨-, -, h⟩ := bind_eq_ok.mp h
  obtain ⟨-, -, h⟩ := bind_eq_ok.mp h
  obtain rfl := Except.ok.inj h
  intro x hx
  rcases mem_insertByNumber hx with rfl | hx
  · intro i hi
    obtain rfl : kind = .message i := hi
    exact (rawType_of_resolveType htype).imp type_of_rawType type_of_rawType
  · exact hl x hx

theorem kindAgrees_linkMessage {d : Declared} {v : View} {item : MessageItem}
    {message : Message d.m d.e} (h : linkMessage d v item = .ok message) :
    ∀ f ∈ message.fields, f.KindAgrees := by
  obtain ⟨linked, hlinked, h⟩ := bind_eq_ok.mp h
  obtain rfl := Except.ok.inj h
  have hagrees : ∀ x ∈ linked.fields, x.2.KindAgrees :=
    foldlM_preserves (P := fun linked : Linked d.m d.e => ∀ x ∈ linked.fields, x.2.KindAgrees)
      kindAgrees_linkField hlinked (fun x hx => absurd hx List.not_mem_nil)
  intro f hf
  obtain ⟨x, hx, rfl⟩ := List.mem_map.mp hf
  exact hagrees x hx

theorem kindsAgree_ofFiles {files : List Descriptor.File} {p : Pool}
    (h : ofFiles files = .ok p) : p.KindsAgree := by
  obtain ⟨names, -, h⟩ := bind_eq_ok.mp h
  obtain ⟨-, -, h⟩ := bind_eq_ok.mp h
  obtain ⟨messages, hmessages, h⟩ := bind_eq_ok.mp h
  obtain ⟨enums, -, h⟩ := bind_eq_ok.mp h
  obtain ⟨services, -, h⟩ := bind_eq_ok.mp h
  obtain rfl := Except.ok.inj h
  intro i
  have hmem : messages[i] ∈ messages.toList := by simp
  obtain ⟨item, -, hlink⟩ := exists_step_of_mapM (mapM_toList_of_vector hmessages) hmem
  exact kindAgrees_linkMessage hlink

end ProtoSchema.Pool
