import ProtoSchema.Generate
import ProtoSchema.Proofs.Independence

/-!
# Looking methods up by their full names

A configured name is stripped of the dots in front and cut at its last dot;
what stands before it names a service, what stands behind it a method. The
full name of a method is put together in the same way, from a service and a
method without dots, so the cut finds the place of the joint. With names that
tell services apart, and the methods of each, a lookup therefore inverts the
making of full names.

There is one full name that is not put together: that of a method whose
service has no name, in a file without a package. It is the name of the method
alone. There is no dot to cut it at, and with a dot in front it is the same
name once more, so such a method is out of reach.
-/

namespace ProtoSchema

namespace Pool

/-- Services are told apart by full names without a dot in front, the methods
of a service by names without any dot. -/
structure Addressable (p : Pool) : Prop where
  services : (p.services.map (·.fullName)).Nodup
  noDotInFront : ∀ s ∈ p.services, s.fullName.toList.head? ≠ some '.'
  methods : ∀ s ∈ p.services, (s.methods.map (·.name)).Nodup
  noDot : ∀ s ∈ p.services, ∀ m ∈ s.methods, '.' ∉ m.name.toList

/-- The name with `n` more dots in front. -/
def dotted (n : Nat) (name : String) : String :=
  String.ofList (List.replicate n '.') ++ name

theorem bareName_eq_self {name : String} (h : name.toList.head? ≠ some '.') :
    bareName name = name := by
  have hdrop : name.toList.dropWhile (· = '.') = name.toList := by
    cases hname : name.toList with
    | nil => rfl
    | cons c cs =>
        rw [hname, List.head?_cons, ne_eq, Option.some.injEq] at h
        exact List.dropWhile_cons_of_neg (by simpa using h)
  rw [bareName, hdrop, String.ofList_toList]

theorem bareName_dotted (n : Nat) (name : String) : bareName (dotted n name) = bareName name := by
  have hdots : ∀ c ∈ List.replicate n '.', decide (c = '.') = true := by
    intro c hc
    rw [List.eq_of_mem_replicate hc]
    rfl
  rw [bareName, bareName, dotted, String.toList_append, String.toList_ofList,
    List.dropWhile_append_of_pos hdots]

namespace Addressable

variable {p : Pool}

/-- A name finds a method exactly if it is put together from the names of the
service and of the method. -/
theorem findMethod?_eq_some_iff (hp : p.Addressable) {name : String} {m : Method p.m} :
    p.findMethod? name = some m ↔
      ∃ s ∈ p.services, m ∈ s.methods ∧ bareName name = s.fullName ++ "." ++ m.name := by
  rw [findMethod?_eq_some]
  constructor
  · rintro ⟨service, method, s, hcut, hs, hm⟩
    have hservice : s.fullName = service := by simpa using List.find?_some hs
    have hmethod : m.name = method := by simpa using List.find?_some hm
    refine ⟨s, List.mem_of_find?_eq_some hs, List.mem_of_find?_eq_some hm, ?_⟩
    rw [hservice, hmethod]
    exact ((Text.cutLast?_eq_some (by decide)).mp hcut).1
  · rintro ⟨s, hs, hm, hname⟩
    refine ⟨s.fullName, m.name, s, ?_, find?_eq_some_of_nodup hp.services hs,
      find?_eq_some_of_nodup (hp.methods s hs) hm⟩
    exact (Text.cutLast?_eq_some (by decide)).mpr ⟨hname, hp.noDot s hs m hm⟩

theorem bareName_fullName (hp : p.Addressable) {s : Service p.m} (hs : s ∈ p.services)
    (hne : s.fullName ≠ "") (name : String) :
    bareName (qualify s.fullName name) = s.fullName ++ "." ++ name := by
  rw [qualify_of_ne_empty hne]
  refine bareName_eq_self ?_
  obtain ⟨c, cs, hcs⟩ : ∃ c cs, s.fullName.toList = c :: cs :=
    List.exists_cons_of_ne_nil fun hnil => hne (String.toList_eq_nil_iff.mp hnil)
  have hstart := hp.noDotInFront s hs
  rw [String.append_assoc, String.toList_append, hcs]
  rwa [hcs] at hstart

end Addressable

theorem findMethod_eq_ok {p : Pool} {name : String} {m : Method p.m} :
    p.findMethod name = .ok m ↔ p.findMethod? name = some m := by
  rw [findMethod]
  cases p.findMethod? name with
  | none => simp
  | some m' => simp

theorem findMethod_eq_error {p : Pool} {name : String} (h : p.findMethod? name = none) :
    p.findMethod name = .error (.unknownMethod name) := by
  rw [findMethod, h]

/-- The full name of a method finds it, with any number of dots in front, if
its service has a name. What finds a method is its full name but for dots in
front, and every other name is unknown and reported as it was written. -/
theorem findMethod_inverts_fullName {p : Pool} (hp : p.Addressable) :
    (∀ s ∈ p.services, s.fullName ≠ "" → ∀ m ∈ s.methods, ∀ n,
      p.findMethod (dotted n (qualify s.fullName m.name)) = .ok m) ∧
    (∀ name m, p.findMethod name = .ok m ↔
      ∃ s ∈ p.services, m ∈ s.methods ∧ bareName name = s.fullName ++ "." ++ m.name) ∧
    ∀ name, (∀ s ∈ p.services, ∀ m ∈ s.methods, bareName name ≠ s.fullName ++ "." ++ m.name) →
      p.findMethod name = .error (.unknownMethod name) := by
  refine ⟨fun s hs hne m hm n => ?_, fun name m => ?_, fun name h => ?_⟩
  · rw [findMethod_eq_ok, hp.findMethod?_eq_some_iff]
    refine ⟨s, hs, hm, ?_⟩
    rw [bareName_dotted, hp.bareName_fullName hs hne]
  · rw [findMethod_eq_ok, hp.findMethod?_eq_some_iff]
  · refine findMethod_eq_error (Option.eq_none_iff_forall_ne_some.mpr fun m hm => ?_)
    obtain ⟨s, hs, hmem, hname⟩ := hp.findMethod?_eq_some_iff.mp hm
    exact h s hs m hmem hname

end Pool

/-! ## A stall

A stall sells for coins. It is a service that may have a name or not. -/

namespace Stall

open Pool

def file (service : Option String) : Descriptor.File where
  name := some "stall.proto"
  isProto3 := true
  messages := [{ name := some "Coin" }]
  services := [
    { name := service
      methods := [{ name := some "Sell", inputType := some ".Coin", outputType := some ".Coin" }] }]

def sell (service : String) : Method 1 :=
  { name := "Sell", service, package := "", file := "stall.proto"
    input := Fin.last 0, output := Fin.last 0 }

def pool (service : String) : Pool where
  m := 1
  e := 0
  messages := #v[{ fullName := "Coin", package := "", file := "stall.proto", fields := [] }]
  enums := .emptyWithCapacity 0
  services := [{ fullName := service, methods := [sell service] }]

theorem addressable_pool {service : String} (h : service.toList.head? ≠ some '.') :
    (pool service).Addressable where
  services := List.nodup_singleton _
  noDotInFront := List.forall_mem_singleton.mpr h
  methods := List.forall_mem_singleton.mpr (List.nodup_singleton _)
  noDot := by
    have hsell : '.' ∉ "Sell".toList := by decide
    exact List.forall_mem_singleton.mpr (List.forall_mem_singleton.mpr hsell)

/-- With a name, the method of the stall is found by it. -/
theorem findMethod_inverts_fullName_named :
    Pool.ofFiles [file (some "Stall")] = .ok (pool "Stall") ∧
    (pool "Stall").Addressable ∧
    (pool "Stall").findMethod "..Stall.Sell" = .ok (sell "Stall") ∧
    (pool "Stall").findMethod "..Sell" = .error (.unknownMethod "..Sell") := by
  have hp : (pool "Stall").Addressable := addressable_pool (by decide)
  obtain ⟨hfound, -, hunknown⟩ := findMethod_inverts_fullName hp
  refine ⟨by decide +kernel, hp, ?_, ?_⟩
  · exact hfound _ List.mem_cons_self (by decide) _ List.mem_cons_self 2
  · refine hunknown _ (List.forall_mem_singleton.mpr (List.forall_mem_singleton.mpr ?_))
    decide

/-- Without a name, it is not found by its full name, however many dots stand
in front. -/
theorem not_findMethod_nameless :
    Pool.ofFiles [file none] = .ok (pool "") ∧
    (pool "").Addressable ∧
    (sell "") ∈ (pool "").services.flatMap (·.methods) ∧ (sell "").fullName = "Sell" ∧
    ∀ n, (pool "").findMethod (dotted n "Sell") = .error (.unknownMethod (dotted n "Sell")) := by
  refine ⟨by decide +kernel, addressable_pool (by decide), List.mem_singleton_self _, rfl, ?_⟩
  intro n
  have hnone : (pool "").findMethod? "Sell" = none := by decide +kernel
  rw [← findMethod?_congr _ (bareName_dotted n "Sell")] at hnone
  exact findMethod_eq_error hnone

end Stall

end ProtoSchema
