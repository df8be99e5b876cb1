import ProtoSchema.Config.Basic
import ProtoSchema.Proofs.JsonReading

/-!
# A configuration is read back member by member

Each member of the JSON form sets one setting and leaves the others alone, so
what is read depends only on which members are there: those settings are as
they were, and all others are the defaults (`Config.kept`, from the default
configuration). Order does not matter since the settings are disjoint, and
members with other names do nothing.

The modules are a record inside the record and behave the same way, so both
are instances of one statement about a layout whose members are known to set
what they spell (`Layout.Describes`). The two levels meet in the member
`modules`: whatever was left of the inner object is what the outer one keeps.
-/

namespace ProtoSchema

namespace Json

/-- What an object becomes when members are taken out, the others put in any
order, and members with other names added anywhere. -/
def Edited (full ms : List (String × Value)) : Prop :=
  ∃ left, left.Sublist full ∧ (ms.filter fun m => m.1 ∈ full.map (·.1)).Perm left

section Edited

variable {full ms : List (String × Value)}

theorem edited_refl (full : List (String × Value)) : Edited full full := by
  refine ⟨full, .refl _, ?_⟩
  rw [List.filter_eq_self.mpr]
  intro m hm
  simpa using ⟨m.2, hm⟩

theorem Edited.mem (h : Edited full ms) {m : String × Value} (hm : m ∈ ms)
    (hkey : m.1 ∈ full.map (·.1)) : m ∈ full := by
  obtain ⟨left, hleft, hperm⟩ := h
  exact hleft.subset (hperm.mem_iff.mp (List.mem_filter.mpr ⟨hm, by simpa using hkey⟩))

theorem Edited.nodup (h : Edited full ms) (hn : (full.map (·.1)).Nodup) :
    ((ms.filter fun m => m.1 ∈ full.map (·.1)).map (·.1)).Nodup := by
  obtain ⟨left, hleft, hperm⟩ := h
  exact (hperm.map _).nodup_iff.mpr (hn.sublist (hleft.map _))

end Edited

/-- The members of `full` are those of the layout, and `kept keys` sets the
ones that are named to what `full` says. -/
structure Layout.Describes {σ : Type} (l : Layout σ) (full : List (String × Value))
    (kept : List String → σ → σ) : Prop where
  keys : full.map (·.1) = l.keys
  nodup : l.keys.Nodup
  nil : kept [] = id
  cons : ∀ key keys s, kept (key :: keys) s = kept keys (kept [key] s)
  known : ∀ m ∈ full, m.2.IsJson → l.Updates m (kept [m.1])
  unknown : ∀ key ∉ l.keys, kept [key] = id

namespace Layout.Describes

variable {σ : Type} {l : Layout σ} {full ms : List (String × Value)} {kept : List String → σ → σ}

theorem foldl_kept (h : l.Describes full kept) (s : σ) :
    ms.foldl (fun s m => kept [m.1] s) s = kept (ms.map (·.1)) s := by
  induction ms generalizing s with
  | nil => rw [List.map_nil, h.nil, List.foldl_nil, id]
  | cons m ms ih => rw [List.foldl_cons, ih, List.map_cons, h.cons m.1 (ms.map _)]

theorem updates (h : l.Describes full kept) (he : Edited full ms) {m : String × Value}
    (hm : m ∈ ms) (hj : m.2.IsJson) : l.Updates m (kept [m.1]) := by
  by_cases hkey : m.1 ∈ l.keys
  · exact h.known m (he.mem hm (h.keys ▸ hkey)) hj
  · have hnone : l.member? m.1 = none := by
      simpa [← l.member?_isSome] using hkey
    rw [Updates, hnone]
    exact ⟨hj, h.unknown m.1 hkey⟩

/-- What is left of the members is kept, and the rest is initial. -/
theorem takes_object (h : l.Describes full kept) (he : Edited full ms)
    (hj : (Value.object ms).IsJson) :
    l.reader.Takes (.object ms) (kept (ms.map (·.1)) l.initial) := by
  cases hj with
  | object hj =>
      have hfresh : l.Fresh [] ms := ⟨by simp, h.keys ▸ he.nodup (h.keys ▸ h.nodup)⟩
      rw [← h.foldl_kept]
      exact Layout.takes_object (kept [·]) (fun m hm => h.updates he hm (hj m hm)) hfresh

end Layout.Describes

theorem Layout.updates_of_member {σ α : Type} {l : Layout σ} {key : String} {v : Value}
    {r : Reader α} {a : α} {set : α → σ → σ} {f : σ → σ}
    (hm : l.member? key = some { key, read := r.map set }) (hr : r.Takes v a)
    (hf : ∀ s, set a s = f s) : l.Updates (key, v) f := by
  obtain rfl : set a = f := funext hf
  rw [Layout.Updates, hm]
  exact hr.map set

theorem Layout.notMem_singleton {σ : Type} {l : Layout σ} {key : String} (h : key ∉ l.keys) :
    ∀ x ∈ l.keys, x ∉ [key] :=
  fun _ hx hmem => h (List.mem_singleton.mp hmem ▸ hx)

end Json

/-! ## Modules -/

/-- Keeping one name and then others is keeping all of them. -/
theorem ite_mem_cons {α : Type} (x key : String) (keys : List String) (a b : α) :
    (if x ∈ key :: keys then a else b) =
      if x ∈ keys then a else if x ∈ [key] then a else b := by
  grind

namespace Schema

/-- The modules of `m` whose members are named, the others as in `start`. -/
def Modules.kept (m : Modules) (keys : List String) (start : Modules) : Modules where
  proto := if "proto" ∈ keys then m.proto else start.proto
  handlers := if "handlers" ∈ keys then m.handlers else start.handlers
  extensions := if "extensions" ∈ keys then m.extensions else start.extensions
  scalars := if "scalars" ∈ keys then m.scalars else start.scalars
  parseDict := if "parse_dict" ∈ keys then m.parseDict else start.parseDict

end Schema

namespace Config

open ProtoSchema.Schema (Modules)
open ProtoSchema.Json (Edited Value Layout Reader)

def moduleMembers (m : Modules) : List (String × Value) :=
  [("proto", .string m.proto), ("handlers", .string m.handlers),
   ("extensions", .string m.extensions), ("scalars", .string m.scalars),
   ("parse_dict", .string m.parseDict)]

theorem describes_modules (m : Modules) : modulesLayout.Describes (moduleMembers m) m.kept where
  keys := rfl
  nodup := by decide
  nil := rfl
  cons key keys s := by
    rw [Modules.kept, Modules.kept, Modules.mk.injEq]
    exact ⟨ite_mem_cons .., ite_mem_cons .., ite_mem_cons .., ite_mem_cons .., ite_mem_cons ..⟩
  known := by
    intro x hx _
    simp only [moduleMembers, List.mem_cons, List.not_mem_nil, or_false] at hx
    rcases hx with rfl | rfl | rfl | rfl | rfl
    all_goals
      exact Layout.updates_of_member rfl (Reader.takes_text _ _) fun s => by simp [Modules.kept]
  unknown := by
    intro key hkey
    have hne := Layout.notMem_singleton hkey
    simp only [Layout.keys, modulesLayout, textMember, List.map_cons, List.map_nil,
      List.forall_mem_cons] at hne
    funext s
    simp only [Modules.kept, hne, if_false, id]

/-! ## Settings -/

/-- The settings of `c` whose members are named, the others as in `start`. -/
def kept (c : Config) (keys : List String) (start : Config) : Config where
  extensions := if "extensions" ∈ keys then c.extensions else start.extensions
  queries := if "queries" ∈ keys then c.queries else start.queries
  mutations := if "mutations" ∈ keys then c.mutations else start.mutations
  modules := if "modules" ∈ keys then c.modules else start.modules
  validate := if "validate" ∈ keys then c.validate else start.validate
  output := if "output" ∈ keys then c.output else start.output

/-- The members of the JSON form, with `modules` for the value of the member
of that name. -/
def members (c : Config) (modules : Value) : List (String × Value) :=
  [("extensions", optionalText c.extensions),
   ("queries", .array (c.queries.map .string)),
   ("mutations", .array (c.mutations.map .string)),
   ("modules", modules),
   ("validate", .bool c.validate),
   ("output", optionalText c.output)]

theorem toJson_eq (c : Config) :
    c.toJson = .object (c.members (.object (moduleMembers c.modules))) :=
  rfl

theorem takes_optionalText (expected : String) (x : Option String) :
    (Reader.text expected).optional.Takes (optionalText x) x := by
  cases x with
  | none => exact Reader.takes_optional_null _
  | some s => exact (Reader.takes_text expected s).optional

theorem takes_texts (xs : List String) : texts.Takes (.array (xs.map .string)) xs :=
  Reader.takes_list fun s _ => ⟨.string s, Reader.takes_text _ s⟩

/-- The modules of the configuration that is read are what is left of
`mods`. -/
theorem describes_settings (c : Config) {mods : List (String × Value)}
    (hmods : Edited (moduleMembers c.modules) mods) :
    layout.Describes (c.members (.object mods))
      { c with modules := c.modules.kept (mods.map Prod.fst) {} }.kept where
  keys := rfl
  nodup := by decide
  nil := rfl
  cons key keys s := by
    rw [kept, kept, Config.mk.injEq]
    exact ⟨ite_mem_cons .., ite_mem_cons .., ite_mem_cons .., ite_mem_cons .., ite_mem_cons ..,
      ite_mem_cons ..⟩
  known := by
    intro x hx hj
    simp only [members, List.mem_cons, List.not_mem_nil, or_false] at hx
    rcases hx with rfl | rfl | rfl | rfl | rfl | rfl
    · exact Layout.updates_of_member rfl (takes_optionalText _ _) fun s => by simp [kept]
    · exact Layout.updates_of_member rfl (takes_texts _) fun s => by simp [kept]
    · exact Layout.updates_of_member rfl (takes_texts _) fun s => by simp [kept]
    · -- the inner object is read in the same way, from the default modules
      have htakes := (describes_modules c.modules).takes_object hmods hj
      exact Layout.updates_of_member rfl htakes fun s => by simp [kept, modulesLayout]
    · exact Layout.updates_of_member rfl (Reader.takes_flag _) fun s => by simp [kept]
    · exact Layout.updates_of_member rfl (takes_optionalText _ _) fun s => by simp [kept]
  unknown := by
    intro key hkey
    have hne := Layout.notMem_singleton hkey
    simp only [Layout.keys, layout, List.map_cons, List.map_nil, List.forall_mem_cons] at hne
    funext s
    simp only [kept, hne, if_false, id]

theorem ofJson_of_takes {c : Config} {v : Value} (h : layout.reader.Takes v c) {text : String}
    (ht : v.Spells text) : ofJson text = .ok c := by
  rw [ofJson, Json.readAll_of_spells h ht]
  rfl

theorem isJson_optionalText (x : Option String) : (optionalText x).IsJson := by
  cases x with
  | none => exact .null
  | some s => exact .string s

theorem isJson_texts (xs : List String) : (Value.array (xs.map .string)).IsJson := by
  refine .array fun v hv => ?_
  obtain ⟨s, -, rfl⟩ := List.mem_map.mp hv
  exact .string s

theorem isJson_toJson (c : Config) : c.toJson.IsJson := by
  have hmodules : (modulesToJson c.modules).IsJson := by
    refine .object fun m hm => ?_
    simp only [List.mem_cons, List.not_mem_nil, or_false] at hm
    rcases hm with rfl | rfl | rfl | rfl | rfl
    all_goals exact .string _
  refine .object fun m hm => ?_
  simp only [List.mem_cons, List.not_mem_nil, or_false] at hm
  rcases hm with rfl | rfl | rfl | rfl | rfl | rfl
  · exact isJson_optionalText _
  · exact isJson_texts _
  · exact isJson_texts _
  · exact hmodules
  · exact .bool _
  · exact isJson_optionalText _

theorem ofJson_of_edited (c : Config) {mods ms : List (String × Value)} {text : String}
    (hmods : Edited (moduleMembers c.modules) mods) (hms : Edited (c.members (.object mods)) ms)
    (htext : (Value.object ms).Spells text) :
    ofJson text = .ok
      ({ c with modules := c.modules.kept (mods.map Prod.fst) {} }.kept (ms.map Prod.fst) {}) :=
  ofJson_of_takes ((describes_settings c hmods).takes_object hms htext.1) htext

theorem ofJson_of_spells {c : Config} {text : String} (h : c.toJson.Spells text) :
    ofJson text = .ok c := by
  rw [toJson_eq] at h
  rw [ofJson_of_edited c (Json.edited_refl _) (Json.edited_refl _) h]
  simp [members, moduleMembers, kept, Modules.kept]

/-- What is written is read back. When members are taken out of the text, of
the configuration or of its modules, those settings are the defaults; the
order of the members does not matter, nor what stands under other names. -/
theorem ofJson_keeps_members (c : Config) :
    ofJson (String.ofList c.toJson.print) = .ok c ∧
    (∀ text, c.toJson.Spells text → ofJson text = .ok c) ∧
    ∀ (mods ms : List (String × Value)) (text : String),
      Edited (moduleMembers c.modules) mods →
      Edited (c.members (.object mods)) ms →
      (Value.object ms).Spells text →
      ofJson text = .ok
        ({ c with modules := c.modules.kept (mods.map Prod.fst) {} }.kept
          (ms.map Prod.fst) {}) := by
  refine ⟨ofJson_of_spells (isJson_toJson c).spells_print, fun text => ofJson_of_spells, ?_⟩
  intro mods ms text hmods hms htext
  exact ofJson_of_edited c hmods hms htext

end Config

/-! ## A text with gaps -/

namespace Desk

open ProtoSchema.Json (Edited Value)

def config : Config :=
  { extensions := some "ext.py", queries := ["desk.Clerk.Ask"], mutations := ["desk.Clerk.Tell"]
    modules := { proto := "pb", handlers := "desk" }, validate := false, output := some "desk.py" }

def mods : List (String × Value) :=
  [("tint", .bool true), ("handlers", .string "desk")]

def members : List (String × Value) :=
  [("validate", .bool false), ("note", .array [.number true { whole := ['7'] }, .null]),
   ("modules", .object mods), ("queries", .array [.string "desk.Clerk.Ask"])]

def text : String :=
  "\n \x7b\"validate\":false,\"note\":[-7,null],\"modules\":\x7b\"tint\":true," ++
  "\"handlers\":\"desk\"\x7d,\"queries\":[\"desk.Clerk.Ask\"]\x7d\n"

/-- The settings that are there, in their own order. -/
def kept : List (String × Value) :=
  [("queries", .array [.string "desk.Clerk.Ask"]), ("modules", .object mods),
   ("validate", .bool false)]

theorem isJson_members : (Value.object members).IsJson := by
  have hnumber : ({ whole := ['7'] } : Json.NumberParts).IsNumber :=
    ⟨.inr (by decide), by simp, by simp, by simp⟩
  refine .object fun m hm => ?_
  simp only [members, List.mem_cons, List.not_mem_nil, or_false] at hm
  rcases hm with rfl | rfl | rfl | rfl
  · exact .bool _
  · exact .array (by simp [Value.IsJson.number true hnumber, Value.IsJson.null])
  · exact .object (by simp [mods, Value.IsJson.bool, Value.IsJson.string])
  · exact .array (by simp [Value.IsJson.string])

theorem spells_text : (Value.object members).Spells text := by
  have hspaced : Json.Spaced (Value.object members).tokens
      ("\n ".toList ++ (Value.object members).print) := by
    rw [← Value.flatten_tokens, Value.tokens_object]
    exact .cons (by simp [Json.isBlank]) (Json.Spaced.flatten _)
  exact ⟨isJson_members, _, "\n".toList, hspaced, by simp [Json.isBlank], by decide +kernel⟩

/-- Half of the settings and most of the modules are missing, the others stand
in reverse, and both objects hold a member that means nothing. -/
theorem ofJson_keeps_members_desk :
    Config.ofJson text = .ok
      { queries := ["desk.Clerk.Ask"], validate := false, modules := { handlers := "desk" } } := by
  have hmods : Edited (Config.moduleMembers config.modules) mods :=
    ⟨[("handlers", .string "desk")], .cons _ (.cons_cons _ (List.nil_sublist _)), .of_eq rfl⟩
  have hmembers : Edited (config.members (.object mods)) members :=
    ⟨kept, .cons _ (.cons_cons _ (.cons _ (.cons_cons _ (.cons_cons _ (List.nil_sublist _))))),
      List.reverse_perm kept⟩
  rw [(Config.ofJson_keeps_members config).2.2 mods members text hmods hmembers spells_text]
  decide

end Desk

end ProtoSchema
