import ProtoSchema.Proofs.ClassNames
import ProtoSchema.Proofs.Validation

/-!
# When operations have handlers of their own

Every resolver hands its request to a function of one module. The name of the
function is made from the method alone, while the name of the operation also
has the package in it. Validation keeps the operations apart, and inside a
package this keeps the handlers apart as well, since there the two names say
the same. Across packages nothing does. So resolvers of different methods call
different functions exactly if no two packages have methods that are alike in
snake case.
-/

namespace ProtoSchema

open ProtoSchema.Schema

namespace Schema

/-- The function that a resolver calls. -/
def ResolverDecl.handlerPath (m : Modules) (r : ResolverDecl) : String :=
  m.handlers ++ "." ++ r.handler

def Document.handlerPaths (d : Document) : List String :=
  d.resolvers.map (ResolverDecl.handlerPath d.modules)

/-- The line of the call. -/
def ResolverDecl.callLine (m : Modules) (r : ResolverDecl) : String :=
  "        return " ++ r.handlerPath m ++ "(request_message)"

theorem ResolverDecl.handlerPath_inj {m : Modules} {r r' : ResolverDecl} :
    r.handlerPath m = r'.handlerPath m ↔ r.handler = r'.handler := by
  rw [handlerPath, handlerPath, String.append_right_inj]

theorem ResolverDecl.callLine_mem_lines (m : Modules) (r : ResolverDecl) :
    r.callLine m ∈ r.lines m := by
  -- Rewriting with the definition of the line would take its literals apart.
  have hassoc : ∀ a b c d e : String, a ++ (b ++ c ++ d) ++ e = a ++ b ++ c ++ d ++ e := by
    intro a b c d e
    simp only [String.append_assoc]
  have hline : r.callLine m =
      "        return " ++ m.handlers ++ "." ++ r.handler ++ "(request_message)" :=
    hassoc _ m.handlers "." r.handler _
  rw [hline, lines]
  simp only [List.mem_cons, or_true, true_or]

/-- The lines of its resolvers are lines of a document. -/
theorem Document.mem_lines_of_resolver {d : Document} {r : ResolverDecl} (h : r ∈ d.resolvers)
    {line : String} (hline : line ∈ r.lines d.modules) : line ∈ d.lines := by
  rw [lines]
  rcases List.mem_append.mp h with h | h
  · have hroot : line ∈ d.query.lines d.modules :=
      List.mem_append_right _ (List.mem_flatMap.mpr ⟨r, h, hline⟩)
    exact List.mem_append_left _ (List.mem_append_left _ (List.mem_append_right _ hroot))
  · have hroot : line ∈ d.mutation.lines d.modules :=
      List.mem_append_right _ (List.mem_flatMap.mpr ⟨r, h, hline⟩)
    exact List.mem_append_right _ hroot

theorem Document.callLine_mem_lines {d : Document} {r : ResolverDecl} (h : r ∈ d.resolvers) :
    r.callLine d.modules ∈ d.lines :=
  mem_lines_of_resolver h (r.callLine_mem_lines d.modules)

end Schema

namespace Naming

theorem handlerName_inj {a b : String} :
    handlerName a = handlerName b ↔ snakeCase a = snakeCase b := by
  rw [handlerName, handlerName, String.append_left_inj]

/-- Inside a package, the name of an operation says no more than the method in
snake case. -/
theorem operationName_inj {package a b : String} :
    operationName package a = operationName package b ↔ snakeCase a = snakeCase b := by
  rw [operationName, operationName]
  split
  · exact Iff.rfl
  · rw [String.append_right_inj]

end Naming

namespace Selection

variable {p : Pool} {s : Selection p} {o : Overrides} {modules : Modules} {d : Document}

theorem resolvers_of_build (hb : s.build o modules = .ok d) :
    d.resolvers = s.methods.map resolverDecl := by
  obtain ⟨-, -, -, -, hquery, hmutation⟩ := build_eq_ok.mp hb
  rw [Document.resolvers, hquery, hmutation, methods, List.map_append]
  rfl

theorem handlerPath_eq_iff {m k : Pool.Method p.m} :
    (resolverDecl m).handlerPath modules = (resolverDecl k).handlerPath modules ↔
      Naming.snakeCase m.name = Naming.snakeCase k.name := by
  rw [ResolverDecl.handlerPath_inj]
  exact Naming.handlerName_inj

/-- Methods of one package that share a handler share their operation too. -/
theorem eq_of_handlerPath_eq (hv : s.validate = .ok ()) {m k : Pool.Method p.m}
    (hm : m ∈ s.methods) (hk : k ∈ s.methods) (hpackage : m.package = k.package)
    (h : (resolverDecl m).handlerPath modules = (resolverDecl k).handlerPath modules) : m = k := by
  have hnames := (complete_of_validate hv).validate_eq_ok.mp hv
  refine List.inj_on_of_nodup_map hnames hm hk ?_
  rw [Pool.Method.operation, Pool.Method.operation, hpackage, Naming.operationName_inj]
  exact handlerPath_eq_iff.mp h

/-- In the document of a valid selection every resolver calls its handler. The
methods of one package all have handlers of their own, and those of the whole
selection do exactly if no two methods of different packages are alike in
snake case. -/
theorem nodup_handlerPaths_of_validate (hv : s.validate = .ok ())
    (hb : s.build o modules = .ok d) :
    (∀ r ∈ d.resolvers, r.callLine d.modules ∈ d.lines) ∧
    d.resolvers = s.methods.map resolverDecl ∧
    (∀ m ∈ s.methods, ∀ k ∈ s.methods, m ≠ k → m.package = k.package →
      (resolverDecl m).handlerPath d.modules ≠ (resolverDecl k).handlerPath d.modules) ∧
    (d.handlerPaths.Nodup ↔
      ∀ m ∈ s.methods, ∀ k ∈ s.methods, m.package ≠ k.package →
        Naming.snakeCase m.name ≠ Naming.snakeCase k.name) := by
  refine ⟨fun r hr => Document.callLine_mem_lines hr, resolvers_of_build hb, ?_, ?_⟩
  · intro m hm k hk hne hpackage h
    exact hne (eq_of_handlerPath_eq hv hm hk hpackage h)
  · have hmethods : s.methods.Nodup :=
      List.Nodup.of_map _ ((complete_of_validate hv).validate_eq_ok.mp hv)
    rw [Document.handlerPaths, resolvers_of_build hb, List.map_map,
      List.nodup_map_iff_inj_on hmethods]
    constructor
    · intro hinj m hm k hk hpackage hsnake
      have heq := hinj m hm k hk (handlerPath_eq_iff.mpr hsnake)
      exact hpackage (by rw [heq])
    · intro hapart m hm k hk h
      by_cases hpackage : m.package = k.package
      · exact eq_of_handlerPath_eq hv hm hk hpackage h
      · exact absurd (handlerPath_eq_iff.mp h) (hapart m hm k hk hpackage)

end Selection

/-! ## A dock

Crates are lifted at the dock, cars are lifted and lowered at the railway, and
the two are packages that do not know each other. -/

namespace Dock

open Selection

def dock : Descriptor.File where
  name := some "dock.proto"
  package := some "dock"
  isProto3 := true
  messages := [{ name := some "Crate" }]
  services := [
    { name := some "Crane"
      methods := [
        { name := some "Lift", inputType := some ".dock.Crate"
          outputType := some ".dock.Crate" }] }]

def rail : Descriptor.File where
  name := some "rail.proto"
  package := some "rail"
  isProto3 := true
  messages := [{ name := some "Car" }]
  services := [
    { name := some "Winch"
      methods := [
        { name := some "Lift", inputType := some ".rail.Car", outputType := some ".rail.Car" },
        { name := some "Lower", inputType := some ".rail.Car", outputType := some ".rail.Car" }] }]

def liftCrate : Pool.Method 2 :=
  { name := "Lift", service := "dock.Crane", package := "dock", file := "dock.proto"
    input := ⟨0, Nat.two_pos⟩, output := ⟨0, Nat.two_pos⟩ }

def liftCar : Pool.Method 2 :=
  { name := "Lift", service := "rail.Winch", package := "rail", file := "rail.proto"
    input := ⟨1, Nat.one_lt_two⟩, output := ⟨1, Nat.one_lt_two⟩ }

def lowerCar : Pool.Method 2 :=
  { liftCar with name := "Lower" }

def pool : Pool where
  m := 2
  e := 0
  messages := #v[
    { fullName := "dock.Crate", package := "dock", file := "dock.proto", fields := [] },
    { fullName := "rail.Car", package := "rail", file := "rail.proto", fields := [] }]
  enums := .emptyWithCapacity 0
  services := [
    { fullName := "dock.Crane", methods := [liftCrate] },
    { fullName := "rail.Winch", methods := [liftCar, lowerCar] }]

/-- The selection with a query for crates and a mutation for cars. -/
def select (mutation : Pool.Method 2) : Selection pool :=
  ofOperations [liftCrate] [mutation]

def document (mutation : Pool.Method 2) : Document where
  objects :=
    [{ name := "DockCrate", fields := [.dummy] },
     { name := "RailCar", fields := [.dummy] }]
  inputs :=
    [{ name := "DockCrateInput", fields := [.dummy] },
     { name := "RailCarInput", fields := [.dummy] }]
  query := rootDecl (p := pool) queryRootName [liftCrate]
  mutation := rootDecl (p := pool) mutationRootName [mutation]

/-- Methods with names of their own are served apart. -/
theorem nodup_handlerPaths_lower :
    (select lowerCar).validate = .ok () ∧
    (select lowerCar).build (Overrides.empty "ext") {} = .ok (document lowerCar) ∧
    (document lowerCar).handlerPaths.Nodup := by
  have hv : (select lowerCar).validate = .ok () := by
    rw [select, ofOperations_eq_layers]
    decide +kernel
  have hb : (select lowerCar).build (Overrides.empty "ext") {} = .ok (document lowerCar) := by
    rw [select, ofOperations_eq_layers]
    decide +kernel
  have hmethods : (select lowerCar).methods = [liftCrate, lowerCar] :=
    methods_eq_ofOperations (p := pool) [liftCrate] [lowerCar]
  obtain ⟨-, -, -, hnodup⟩ := nodup_handlerPaths_of_validate hv hb
  rw [hmethods] at hnodup
  have hapart : ∀ m ∈ [liftCrate, lowerCar], ∀ k ∈ [liftCrate, lowerCar],
      m.package ≠ k.package → Naming.snakeCase m.name ≠ Naming.snakeCase k.name := by decide
  exact ⟨hv, hb, hnodup.mpr hapart⟩

/-- Two different methods of a valid selection, with different operations, end
up at one handler. -/
theorem not_nodup_handlerPaths_lift :
    Pool.ofFiles [dock, rail] = .ok pool ∧
    (select liftCar).validate = .ok () ∧
    (select liftCar).build (Overrides.empty "ext") {} = .ok (document liftCar) ∧
    liftCrate ≠ liftCar ∧ liftCrate.operation ≠ liftCar.operation ∧
    (document liftCar).handlerPaths =
      ["server.handlers.lift_impl", "server.handlers.lift_impl"] ∧
    ¬ (document liftCar).handlerPaths.Nodup := by
  rw [select, ofOperations_eq_layers]
  exact ⟨by decide +kernel, by decide +kernel, by decide +kernel, by decide, by decide, by decide,
    by decide⟩

end Dock

end ProtoSchema
