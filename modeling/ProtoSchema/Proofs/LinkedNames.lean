import Mathlib.Data.List.FinRange
import ProtoSchema.Proofs.ClassNames

/-!
# Names in linked pools

The table of names is filled item by item and refuses a name that it has. So
what an item of a set is called is new when the item is added and known from
then on, and by induction over the items no two messages, enums or services of
a set have the same full name.

Linking gives one entry of the pool for each item of its kind, in the order of
the items and under their names. Hence a pool inherits the distinctness from
the items of its set. It also inherits that a method carries the name of the
service that it stands in.
-/

namespace ProtoSchema.Pool

/-! ## The table -/

namespace Item

/-- Whether an item is a message, an enum or a service. -/
def isType : Item → Bool
  | message _ => true
  | enum _ => true
  | service _ => true
  | _ => false

/-- The full name of an item; a file goes by its package. -/
def fullName : Item → String
  | file origin _ => origin.package
  | message i => i.fullName
  | enum i => i.fullName
  | service i => i.fullName
  | extension i => i.fullName

end Item

/-- The items of a set of files. -/
def itemsOf (files : List Descriptor.File) : List Item :=
  files.flatMap fileItems

namespace Names

/-- The table has the name. -/
def Has (t : Names) (name : String) : Prop :=
  name ∈ t.entries.map (·.name)

theorem not_has_of_find? {t : Names} {name : String} (h : t.find? name = none) : ¬ t.Has name := by
  intro hhas
  obtain ⟨entry, hentry, rfl⟩ := List.mem_map.mp hhas
  exact absurd (List.find?_eq_none.mp h entry hentry) (by simp)

theorem has_of_find? {t : Names} {name : String} {entry : Entry}
    (h : t.find? name = some entry) : t.Has name := by
  have hname := List.find?_some h
  rw [decide_eq_true_eq] at hname
  exact List.mem_map.mpr ⟨entry, List.mem_of_find?_eq_some h, hname⟩

/-- The later table has all names of the earlier one. -/
def Grows (t t' : Names) : Prop :=
  ∀ name, t.Has name → t'.Has name

theorem Grows.trans {t t' t'' : Names} (h : t.Grows t') (h' : t'.Grows t'') : t.Grows t'' :=
  fun name hname => h' name (h name hname)

/-- A defined name is known afterwards, and it was not before unless it is a
package. -/
theorem define_step {t t' : Names} {role : Role} {file name : String}
    (h : t.define role file name = .ok t') :
    t.Grows t' ∧ t'.Has name ∧ (role ≠ .package → ¬ t.Has name) := by
  rw [define] at h
  split at h
  · next hfind =>
      obtain rfl := Except.ok.inj h
      exact ⟨fun n hn => List.mem_cons_of_mem _ hn, List.mem_cons_self,
        fun _ => not_has_of_find? hfind⟩
  · next old hfind =>
      split at h
      · next hpackage =>
          obtain rfl := Except.ok.inj h
          exact ⟨fun _ hn => hn, has_of_find? hfind, fun hrole => absurd hpackage.1 hrole⟩
      · split at h <;> cases h

theorem grows_defineAll {t t' : Names} {role : Role} {file : String} {names : List String}
    (h : t.defineAll role file names = .ok t') : t.Grows t' :=
  foldlM_preserves (P := fun u => t.Grows u)
    (fun hdefine hgrows => hgrows.trans (define_step hdefine).1) h fun _ hn => hn

/-- Adding an item that is no type only makes the table grow; the name of a
type is new and known from then on. -/
theorem add_step {t t' : Names} {item : Item} (h : t.add item = .ok t') :
    t.Grows t' ∧ (item.isType → ¬ t.Has item.fullName ∧ t'.Has item.fullName) := by
  cases item with
  | file origin d =>
      simp only [Names.add] at h
      split at h
      · cases h
      · exact ⟨grows_defineAll (t := { t with files := origin.file :: t.files }) h,
          fun htype => absurd htype Bool.false_ne_true⟩
  | message i =>
      obtain ⟨t₁, h₁, h⟩ := bind_eq_ok.mp h
      obtain ⟨hgrows, hhas, hnew⟩ := define_step h₁
      -- Whether camel case is checked or not, the oneofs and fields are defined next.
      have hrest : t₁.Grows t' := by
        simp only [] at h
        split at h
        · obtain ⟨-, -, h⟩ := bind_eq_ok.mp h
          obtain ⟨t₂, h₂, h⟩ := bind_eq_ok.mp h
          exact (grows_defineAll h₂).trans (grows_defineAll h)
        · obtain ⟨t₂, h₂, h⟩ := bind_eq_ok.mp h
          exact (grows_defineAll h₂).trans (grows_defineAll h)
      exact ⟨hgrows.trans hrest, fun _ => ⟨hnew (by decide), hrest _ hhas⟩⟩
  | enum i =>
      obtain ⟨t₁, h₁, h⟩ := bind_eq_ok.mp h
      obtain ⟨hgrows, hhas, hnew⟩ := define_step h₁
      have hrest : t₁.Grows t' := by
        simp only [] at h
        split at h
        · cases h
        · split at h
          · cases h
          · exact grows_defineAll h
      exact ⟨hgrows.trans hrest, fun _ => ⟨hnew (by decide), hrest _ hhas⟩⟩
  | service i =>
      obtain ⟨t₁, h₁, h⟩ := bind_eq_ok.mp h
      obtain ⟨hgrows, hhas, hnew⟩ := define_step h₁
      have hrest := grows_defineAll h
      exact ⟨hgrows.trans hrest, fun _ => ⟨hnew (by decide), hrest _ hhas⟩⟩
  | extension i => exact ⟨(define_step h).1, fun htype => absurd htype Bool.false_ne_true⟩

theorem nodup_of_foldlM_add {items : List Item} {t t' : Names}
    (h : items.foldlM Names.add t = .ok t') :
    ((items.filter Item.isType).map Item.fullName).Nodup ∧
      ∀ name ∈ (items.filter Item.isType).map Item.fullName, ¬ t.Has name := by
  induction items generalizing t with
  | nil => exact ⟨List.nodup_nil, fun _ hname => absurd hname List.not_mem_nil⟩
  | cons item items ih =>
      rw [List.foldlM_cons] at h
      obtain ⟨t₁, hadd, h⟩ := bind_eq_ok.mp h
      obtain ⟨hgrows, htype⟩ := add_step hadd
      obtain ⟨hnodup, hnew⟩ := ih h
      have hrest : ∀ name ∈ (items.filter Item.isType).map Item.fullName, ¬ t.Has name :=
        fun name hname hhas => hnew name hname (hgrows name hhas)
      by_cases hitem : item.isType
      · obtain ⟨hfresh, hknown⟩ := htype hitem
        rw [List.filter_cons_of_pos hitem, List.map_cons]
        refine ⟨List.nodup_cons.mpr ⟨fun hmem => hnew _ hmem hknown, hnodup⟩, ?_⟩
        exact List.forall_mem_cons.mpr ⟨hfresh, hrest⟩
      · rw [List.filter_cons_of_neg hitem]
        exact ⟨hnodup, hrest⟩

end Names

/-- No two types of a set have the same full name. -/
theorem nodup_types_of_ofItems {items : List Item} {t : Names} (h : Names.ofItems items = .ok t) :
    ((items.filter Item.isType).map Item.fullName).Nodup :=
  (Names.nodup_of_foldlM_add h).1

/-! ## From items to entries of the pool -/

/-- What is picked from a list and named as the list says has its names in the
order of the list. -/
theorem map_filterMap_sublist {α β γ : Type} {pick : α → Option β} {q : α → Bool} {f : α → γ}
    {g : β → γ} (h : ∀ a b, pick a = some b → q a ∧ f a = g b) (l : List α) :
    ((l.filterMap pick).map g).Sublist ((l.filter q).map f) := by
  induction l with
  | nil => exact .slnil
  | cons a l ih =>
      cases hpick : pick a with
      | none =>
          rw [List.filterMap_cons_none hpick]
          by_cases hq : q a
          · rw [List.filter_cons_of_pos hq]
            exact ih.cons _
          · rw [List.filter_cons_of_neg hq]
            exact ih
      | some b =>
          obtain ⟨hq, hname⟩ := h a b hpick
          rw [List.filterMap_cons_some hpick, List.filter_cons_of_pos hq, List.map_cons,
            List.map_cons, hname]
          exact ih.cons_cons _

theorem message?_eq_some {item : Item} {i : MessageItem} (h : item.message? = some i) :
    item = .message i := by
  cases item <;> cases h
  rfl

theorem enum?_eq_some {item : Item} {i : EnumItem} (h : item.enum? = some i) :
    item = .enum i := by
  cases item <;> cases h
  rfl

theorem service?_eq_some {item : Item} {i : ServiceItem} (h : item.service? = some i) :
    item = .service i := by
  cases item <;> cases h
  rfl

/-- What linking keeps of a message: its name, its package and its file. -/
def MessageItem.place (i : MessageItem) : String × String × String :=
  (i.fullName, i.origin.package, i.origin.file)

def Message.place {m e : Nat} (message : Message m e) : String × String × String :=
  (message.fullName, message.package, message.file)

theorem place_linkMessage {d : Declared} {v : View} {item : MessageItem}
    {message : Message d.m d.e} (h : linkMessage d v item = .ok message) :
    message.place = item.place := by
  obtain ⟨linked, -, h⟩ := bind_eq_ok.mp h
  rw [← Except.ok.inj h]
  rfl

theorem fullName_linkEnum {item : EnumItem} {enum : Enum} (h : linkEnum item = .ok enum) :
    enum.fullName = item.fullName := by
  obtain ⟨values, -, h⟩ := bind_eq_ok.mp h
  rw [← Except.ok.inj h]

theorem fullName_linkService {d : Declared} {v : View} {item : ServiceItem}
    {service : Service d.m} (h : linkService d v item = .ok service) :
    service.fullName = item.fullName := by
  obtain ⟨methods, -, h⟩ := bind_eq_ok.mp h
  rw [← Except.ok.inj h]

/-- A linked method says where its service stands and what it is called. -/
theorem method_of_linkService {d : Declared} {v : View} {item : ServiceItem}
    {service : Service d.m} (h : linkService d v item = .ok service) {method : Method d.m}
    (hmethod : method ∈ service.methods) :
    method.service = item.fullName ∧ method.file = item.origin.file ∧
      ∃ m ∈ item.descriptor.methods, method.name = m.name.getD "" := by
  obtain ⟨methods, hmethods, h⟩ := bind_eq_ok.mp h
  obtain rfl := Except.ok.inj h
  obtain ⟨m, hm, hlink⟩ := exists_step_of_mapM hmethods hmethod
  obtain ⟨input, -, hlink⟩ := bind_eq_ok.mp hlink
  obtain ⟨output, -, hlink⟩ := bind_eq_ok.mp hlink
  obtain rfl := Except.ok.inj hlink
  exact ⟨rfl, rfl, m, hm, rfl⟩

theorem map_finRange_get {α : Type} {n : Nat} (v : Vector α n) :
    (List.finRange n).map (fun i => v[i]) = v.toList := by
  rw [← List.ofFn_eq_map]
  apply List.ext_getElem
  · simp
  · intro i h h'
    simp

/-- How a pool comes from its set. -/
structure LinkedFrom (p : Pool) (items : List Item) : Prop where
  distinct : ((items.filter Item.isType).map Item.fullName).Nodup
  messages : (List.finRange p.m).map (fun i => (p.message i).place) =
    (items.filterMap Item.message?).map MessageItem.place
  enums : (List.finRange p.e).map (fun j => (p.enum j).fullName) =
    (items.filterMap Item.enum?).map (·.fullName)
  services : p.services.map (·.fullName) = (items.filterMap Item.service?).map (·.fullName)
  methods : ∀ s ∈ p.services, ∃ i, Item.service i ∈ items ∧ s.fullName = i.fullName ∧
    ∀ m ∈ s.methods, m.service = i.fullName ∧ m.file = i.origin.file ∧
      ∃ d ∈ i.descriptor.methods, m.name = d.name.getD ""

theorem linkedFrom_ofFiles {files : List Descriptor.File} {p : Pool}
    (h : ofFiles files = .ok p) : p.LinkedFrom (itemsOf files) := by
  obtain ⟨names, hnames, h⟩ := bind_eq_ok.mp h
  obtain ⟨-, -, h⟩ := bind_eq_ok.mp h
  obtain ⟨messages, hmessages, h⟩ := bind_eq_ok.mp h
  obtain ⟨enums, henums, h⟩ := bind_eq_ok.mp h
  obtain ⟨services, hservices, h⟩ := bind_eq_ok.mp h
  obtain rfl := Except.ok.inj h
  exact {
    distinct := nodup_types_of_ofItems hnames
    messages := by
      have hplaces := map_eq_of_mapM (mapM_toList_of_vector hmessages) place_linkMessage
      rw [← map_finRange_get messages, List.map_map] at hplaces
      exact hplaces
    enums := by
      have hfullNames := map_eq_of_mapM (mapM_toList_of_vector henums) fullName_linkEnum
      rw [← map_finRange_get enums, List.map_map] at hfullNames
      exact hfullNames
    services := map_eq_of_mapM hservices fullName_linkService
    methods := by
      intro s hs
      obtain ⟨i, hi, hlink⟩ := exists_step_of_mapM hservices hs
      obtain ⟨item, hitem, hi⟩ := List.mem_filterMap.mp hi
      obtain rfl := service?_eq_some hi
      exact ⟨i, hitem, fullName_linkService hlink, fun m hm => method_of_linkService hlink hm⟩ }

/-! ## What a linked pool guarantees -/

/-- An element is found by its key, if keys are not shared. -/
theorem find?_eq_some_of_nodup {α : Type} {key : α → String} {l : List α}
    (h : (l.map key).Nodup) {a : α} (ha : a ∈ l) : l.find? (key · = key a) = some a := by
  cases hfind : l.find? (key · = key a) with
  | none => exact absurd (List.find?_eq_none.mp hfind a ha) (by simp)
  | some b =>
      have hkey : key b = key a := by simpa using List.find?_some hfind
      rw [List.inj_on_of_nodup_map h (List.mem_of_find?_eq_some hfind) ha hkey]

/-- Messages, enums and services have names of their own, and a method has the
name of its service. -/
structure WellNamed (p : Pool) : Prop where
  types : p.UniqueNames
  services : (p.services.map (·.fullName)).Nodup
  methods : ∀ s ∈ p.services, ∀ m ∈ s.methods, m.service = s.fullName

namespace WellNamed

variable {p : Pool}

theorem message_inj (hp : p.WellNamed) {i j : Fin p.m}
    (h : (p.message i).fullName = (p.message j).fullName) : i = j :=
  hp.types.message_injective h

theorem enum_inj (hp : p.WellNamed) {i j : Fin p.e}
    (h : (p.enum i).fullName = (p.enum j).fullName) : i = j :=
  hp.types.enum_injective h

theorem findService?_of_mem (hp : p.WellNamed) {s : Service p.m} (hs : s ∈ p.services) :
    p.findService? s.fullName = some s :=
  find?_eq_some_of_nodup hp.services hs

end WellNamed

namespace LinkedFrom

variable {p : Pool} {items : List Item}

theorem messageNames (h : p.LinkedFrom items) :
    (List.finRange p.m).map (fun i => (p.message i).fullName) =
      (items.filterMap Item.message?).map (·.fullName) := by
  have hplaces := congrArg (List.map Prod.fst) h.messages
  rw [List.map_map, List.map_map] at hplaces
  exact hplaces

/-- The item of a full name is the only type that has it. -/
theorem eq_of_fullName (h : p.LinkedFrom items) {a b : Item} (ha : a ∈ items) (hb : b ∈ items)
    (hta : a.isType) (htb : b.isType) (heq : a.fullName = b.fullName) : a = b :=
  List.inj_on_of_nodup_map h.distinct (List.mem_filter.mpr ⟨ha, hta⟩)
    (List.mem_filter.mpr ⟨hb, htb⟩) heq

theorem nodup_of_pick (h : p.LinkedFrom items) {α : Type} {pick : Item → Option α}
    {name : α → String}
    (hpick : ∀ item a, pick item = some a → item.isType ∧ item.fullName = name a) :
    ((items.filterMap pick).map name).Nodup :=
  h.distinct.sublist (map_filterMap_sublist hpick items)

theorem wellNamed (h : p.LinkedFrom items) : p.WellNamed where
  types := by
    refine List.nodup_append.mpr ⟨?_, ?_, ?_⟩
    · rw [h.enums]
      refine h.nodup_of_pick fun item i hi => ?_
      rw [enum?_eq_some hi]
      exact ⟨rfl, rfl⟩
    · rw [h.messageNames]
      refine h.nodup_of_pick fun item i hi => ?_
      rw [message?_eq_some hi]
      exact ⟨rfl, rfl⟩
    · rw [h.enums, h.messageNames]
      intro a ha b hb heq
      obtain ⟨i, hi, rfl⟩ := List.mem_map.mp ha
      obtain ⟨j, hj, rfl⟩ := List.mem_map.mp hb
      obtain ⟨item, hitem, hi⟩ := List.mem_filterMap.mp hi
      obtain ⟨item', hitem', hj⟩ := List.mem_filterMap.mp hj
      obtain rfl := enum?_eq_some hi
      obtain rfl := message?_eq_some hj
      exact nomatch h.eq_of_fullName hitem hitem' rfl rfl heq
  services := by
    rw [h.services]
    refine h.nodup_of_pick fun item i hi => ?_
    rw [service?_eq_some hi]
    exact ⟨rfl, rfl⟩
  methods s hs m hm := by
    obtain ⟨i, -, hname, hmethods⟩ := h.methods s hs
    rw [hname]
    exact (hmethods m hm).1

end LinkedFrom

theorem wellNamed_ofFiles {files : List Descriptor.File} {p : Pool} (h : ofFiles files = .ok p) :
    p.WellNamed :=
  (linkedFrom_ofFiles h).wellNamed

end ProtoSchema.Pool
