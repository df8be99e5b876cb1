import Mathlib.Data.List.Nodup
import ProtoSchema.Proofs.ReadingOrder

/-!
# The forest of the class statements

A node of a tree is known by its position, the steps that lead to it, since the
same statement may stand in a source twice. A walk in pre-order meets every
position of the source once. The class statements that it meets outside the
headers of others, each seen with the innermost class statement that has it in
its body, are all there is to say about the declared forest: there is one way
only to arrange them so that each is directly under the one it is seen with.

Positions are read from the inside out. What is around a node is then found by
going down the list of its steps, and the positions below a node are those that
end in its own, which is what keeps the walks through different children apart.
-/

namespace ProtoSchema

namespace Extension

/-! ## Positions -/

/-- Where a node stands in what is directly around it. -/
inductive Place where
  /-- In the source itself, or below a node that is no class statement. -/
  | inside
  /-- In a class statement, outside its body. -/
  | header
  /-- As the body of a class statement. -/
  | body
  deriving DecidableEq, Repr

/-- The step from what is around a node to the node. -/
structure Step where
  place : Place
  /-- The number of nodes before it there. -/
  number : Nat
  deriving DecidableEq, Repr

/-- Where a node is in a source: the steps that lead to it, the last one first.
The position without steps is that of the source itself. -/
abbrev Position := List Step

namespace Position

/-- Whether some class statement has the position in its header. -/
def inHeader (p : Position) : Bool :=
  p.any (·.place = .header)

/-- The innermost class statement that has the position in its body. -/
def home? : Position → Option Position
  | [] => none
  | step :: above => if step.place = .body then some above else home? above

end Position

/-- Where the child of that number stands. A class statement has one body: if
more than one child were labelled so, the first of them. -/
def Node.place : Node → Nat → Place
  | .branch .., _ => .inside
  | .classDef _ children, number =>
    if children.findIdx? (·.field = some .body) = some number then .body else .header

/-- The node that a step leads to, out of nodes side by side. -/
def nodeBehind? (place : Nat → Place) (ns : List Node) (step : Step) : Option Node :=
  if place step.number = step.place then ns[step.number]? else none

/-- The node at a position of the source. -/
def nodeAt? (ns : List Node) : Position → Option Node
  | [] => none
  | [step] => nodeBehind? (fun _ => .inside) ns step
  | step :: above => (nodeAt? ns above).bind fun n => nodeBehind? n.place n.children step

theorem nodeBehind?_self {place : Nat → Place} {ns : List Node} (number : Nat) :
    nodeBehind? place ns ⟨place number, number⟩ = ns[number]? :=
  if_pos rfl

theorem nodeBehind?_eq_some {place : Nat → Place} {ns : List Node} {step : Step} {n : Node} :
    nodeBehind? place ns step = some n ↔
      step = ⟨place step.number, step.number⟩ ∧ ns[step.number]? = some n := by
  obtain ⟨stepPlace, number⟩ := step
  rw [nodeBehind?, Option.ite_none_right_eq_some, Step.mk.injEq]
  simp [eq_comm]

theorem nodeAt?_cons {ns : List Node} {p : Position} {n : Node} (h : nodeAt? ns p = some n)
    (step : Step) : nodeAt? ns (step :: p) = nodeBehind? n.place n.children step := by
  cases p with
  | nil => cases h
  | cons last above =>
      show (nodeAt? ns (last :: above)).bind _ = _
      rw [h, Option.bind_some]

theorem mem_inHeader {p : Position} : p.inHeader ↔ ∃ step ∈ p, step.place = .header := by
  simp [Position.inHeader]

theorem inHeader_of_suffix {p q : Position} (h : p <:+ q) (hp : p.inHeader) : q.inHeader := by
  obtain ⟨step, hstep, hplace⟩ := mem_inHeader.mp hp
  exact mem_inHeader.mpr ⟨step, h.subset hstep, hplace⟩

/-! ## The walk through a source -/

mutual

/-- A node at a position and all nodes below it, in pre-order. -/
def Node.visits (p : Position) : Node → List (Position × Node)
  | .branch form field extent children =>
    (p, .branch form field extent children) ::
      visitsOf p (Node.place (.branch form field extent children)) 0 children
  | .classDef extent children =>
    (p, .classDef extent children) ::
      visitsOf p (Node.place (.classDef extent children)) 0 children

/-- The same for nodes side by side below a position, the first of them with so
many nodes before it. -/
def visitsOf (above : Position) (place : Nat → Place) (number : Nat) :
    List Node → List (Position × Node)
  | [] => []
  | n :: rest =>
    n.visits (⟨place number, number⟩ :: above) ++ visitsOf above place (number + 1) rest

end

/-- All nodes of a source in pre-order, with their positions. -/
def walk (ns : List Node) : List (Position × Node) :=
  visitsOf [] (fun _ => .inside) 0 ns

theorem Node.visits_eq (p : Position) (n : Node) :
    n.visits p = (p, n) :: visitsOf p n.place 0 n.children := by
  cases n with
  | branch form field extent children => rfl
  | classDef extent children => rfl

mutual

/-- What holds of a node if it holds of its children holds of all nodes. -/
theorem Node.induction {motive : Node → Prop}
    (step : ∀ n : Node, (∀ m ∈ n.children, motive m) → motive n) : ∀ n : Node, motive n
  | .branch _ _ _ children => step _ (Node.induction_of step children)
  | .classDef _ children => step _ (Node.induction_of step children)

theorem Node.induction_of {motive : Node → Prop}
    (step : ∀ n : Node, (∀ m ∈ n.children, motive m) → motive n) :
    ∀ ns : List Node, ∀ m ∈ ns, motive m
  | [] => fun m hm => nomatch hm
  | n :: rest => fun m hm => by
    rcases List.mem_cons.mp hm with heq | hm
    · exact heq ▸ Node.induction step n
    · exact Node.induction_of step rest m hm

end

theorem mem_visitsOf {above : Position} {place : Nat → Place} {number : Nat} {ns : List Node}
    {v : Position × Node} :
    v ∈ visitsOf above place number ns ↔ ∃ (i : Nat) (n : Node), ns[i]? = some n ∧
      v ∈ n.visits (⟨place (number + i), number + i⟩ :: above) := by
  induction ns generalizing number with
  | nil => simp [visitsOf]
  | cons n rest ih =>
      rw [visitsOf, List.mem_append, ih]
      constructor
      · intro h
        rcases h with h | ⟨i, m, hm, h⟩
        · exact ⟨0, n, rfl, h⟩
        · rw [Nat.add_right_comm] at h
          exact ⟨i + 1, m, hm, h⟩
      · intro h
        obtain ⟨i, m, hm, h⟩ := h
        cases i with
        | zero => exact .inl (Option.some.inj hm ▸ h)
        | succ i =>
            refine .inr ⟨i, m, hm, ?_⟩
            rw [Nat.add_right_comm]
            exact h

theorem Node.mem_visits {p : Position} {n : Node} {v : Position × Node} :
    v ∈ n.visits p ↔ v = (p, n) ∨ ∃ (i : Nat) (m : Node),
      n.children[i]? = some m ∧ v ∈ m.visits (⟨n.place i, i⟩ :: p) := by
  simp only [n.visits_eq p, List.mem_cons, mem_visitsOf, Nat.zero_add]

/-! ### Every node is met -/

theorem Node.nodeAt?_of_mem_visits {ns : List Node} (n : Node) :
    ∀ {p : Position} {v : Position × Node}, nodeAt? ns p = some n → v ∈ n.visits p →
      nodeAt? ns v.1 = some v.2 := by
  induction n using Node.induction with
  | step n ih =>
      intro p v hn hv
      rcases mem_visits.mp hv with rfl | ⟨i, m, hm, hv⟩
      · exact hn
      · refine ih m (List.mem_of_getElem? hm) ?_ hv
        rw [nodeAt?_cons hn, nodeBehind?_self]
        exact hm

/-- What is met below a node that is met is met too. -/
theorem Node.visits_subset (n : Node) :
    ∀ {p : Position} {v : Position × Node}, v ∈ n.visits p → v.2.visits v.1 ⊆ n.visits p := by
  induction n using Node.induction with
  | step n ih =>
      intro p v hv w hw
      rcases mem_visits.mp hv with rfl | ⟨i, m, hm, hv⟩
      · exact hw
      · exact mem_visits.mpr (.inr ⟨i, m, hm, ih m (List.mem_of_getElem? hm) hv hw⟩)

theorem mem_walk_of_nodeAt? {ns : List Node} :
    ∀ {p : Position} {n : Node}, nodeAt? ns p = some n → (p, n) ∈ walk ns
  | [step], n, h => by
    obtain ⟨hstep, hn⟩ := nodeBehind?_eq_some.mp h
    refine mem_visitsOf.mpr ⟨step.number, n, hn, ?_⟩
    rw [Nat.zero_add, ← hstep]
    exact Node.mem_visits.mpr (.inl rfl)
  | step :: last :: above, n, h => by
    obtain ⟨m, hm, h⟩ := Option.bind_eq_some_iff.mp h
    obtain ⟨hstep, hn⟩ := nodeBehind?_eq_some.mp h
    obtain ⟨i, top, htop, hvisit⟩ := mem_visitsOf.mp (mem_walk_of_nodeAt? hm)
    refine mem_visitsOf.mpr ⟨i, top, htop, top.visits_subset hvisit ?_⟩
    rw [hstep]
    exact Node.mem_visits.mpr (.inr ⟨step.number, n, hn, Node.mem_visits.mpr (.inl rfl)⟩)

/-- The walk meets the nodes of the source, each where it stands. -/
theorem mem_walk {ns : List Node} {p : Position} {n : Node} :
    (p, n) ∈ walk ns ↔ nodeAt? ns p = some n := by
  constructor
  · intro h
    obtain ⟨i, top, htop, hvisit⟩ := mem_visitsOf.mp h
    rw [Nat.zero_add] at hvisit
    have hat : nodeAt? ns [⟨.inside, i⟩] = some top := htop
    exact top.nodeAt?_of_mem_visits hat hvisit
  · intro h
    exact mem_walk_of_nodeAt? h

/-! ### No node is met twice -/

theorem Node.suffix_of_mem_visits (n : Node) :
    ∀ {p : Position} {v : Position × Node}, v ∈ n.visits p → p <:+ v.1 := by
  induction n using Node.induction with
  | step n ih =>
      intro p v hv
      rcases mem_visits.mp hv with rfl | ⟨i, m, hm, hv⟩
      · exact List.suffix_rfl
      · exact (List.suffix_cons _ p).trans (ih m (List.mem_of_getElem? hm) hv)

theorem exists_suffix_of_mem_visitsOf {above : Position} {place : Nat → Place} {number : Nat}
    {ns : List Node} {v : Position × Node} (h : v ∈ visitsOf above place number ns) :
    ∃ i, number ≤ i ∧ ⟨place i, i⟩ :: above <:+ v.1 := by
  obtain ⟨i, n, -, hv⟩ := mem_visitsOf.mp h
  exact ⟨number + i, Nat.le_add_right number i, n.suffix_of_mem_visits hv⟩

/-- Positions below different nodes that stand side by side are different. -/
theorem step_unique {above p : Position} {step step' : Step} (h : step :: above <:+ p)
    (h' : step' :: above <:+ p) : step = step' := by
  have hlength : (step :: above).length ≤ (step' :: above).length := Nat.le_refl _
  exact (List.cons.inj ((List.suffix_of_suffix_length_le h h' hlength).eq_of_length rfl)).1

theorem nodup_visitsOf {ns : List Node}
    (hns : ∀ n ∈ ns, ∀ p, ((n.visits p).map Prod.fst).Nodup) (above : Position)
    (place : Nat → Place) (number : Nat) :
    ((visitsOf above place number ns).map Prod.fst).Nodup := by
  induction ns generalizing number with
  | nil => exact List.nodup_nil
  | cons n rest ih =>
      rw [visitsOf, List.map_append, List.nodup_append]
      refine ⟨hns n List.mem_cons_self _,
        ih (fun m hm => hns m (List.mem_cons_of_mem n hm)) (number + 1), ?_⟩
      intro p hp q hq heq
      obtain ⟨v, hv, rfl⟩ := List.mem_map.mp hp
      obtain ⟨w, hw, rfl⟩ := List.mem_map.mp hq
      obtain ⟨i, hi, hsuffix⟩ := exists_suffix_of_mem_visitsOf hw
      have hnumber : number = i :=
        congrArg Step.number (step_unique (n.suffix_of_mem_visits hv) (heq ▸ hsuffix))
      omega

theorem Node.nodup_visits (n : Node) : ∀ p, ((n.visits p).map Prod.fst).Nodup := by
  induction n using Node.induction with
  | step n ih =>
      intro p
      rw [n.visits_eq p, List.map_cons, List.nodup_cons]
      refine ⟨fun h => ?_, nodup_visitsOf ih p n.place 0⟩
      obtain ⟨v, hv, heq⟩ := List.mem_map.mp h
      obtain ⟨i, -, hsuffix⟩ := exists_suffix_of_mem_visitsOf hv
      have hle := hsuffix.length_le
      rw [show v.1 = p from heq, List.length_cons] at hle
      omega

theorem nodup_walk (ns : List Node) : ((walk ns).map Prod.fst).Nodup :=
  nodup_visitsOf (fun n _ => n.nodup_visits) [] _ 0

/-! ## Class statements -/

/-- A class statement at its position. -/
structure Site where
  position : Position
  extent : Extent
  children : List Node

namespace Site

def node (c : Site) : Node :=
  .classDef c.extent c.children

/-- The class statement with the one that has it in its body. -/
def housed (c : Site) : Site × Option Position :=
  (c, c.position.home?)

end Site

/-- What the walk meets, if it is a class statement outside the headers of
others. -/
def site? : Position × Node → Option Site
  | (_, .branch ..) => none
  | (p, .classDef extent children) => if p.inHeader then none else some ⟨p, extent, children⟩

/-- The class statements of a source outside the headers of others, in
pre-order. -/
def sites (ns : List Node) : List Site :=
  (walk ns).filterMap site?

theorem site?_eq_some {v : Position × Node} {c : Site} :
    site? v = some c ↔ v = (c.position, c.node) ∧ ¬ c.position.inHeader := by
  obtain ⟨p, n⟩ := v
  cases n with
  | branch form field extent children => simp [site?, Site.node]
  | classDef extent children =>
      rw [site?, Option.ite_none_left_eq_some, Option.some.injEq]
      constructor
      · intro h
        obtain ⟨hheader, rfl⟩ := h
        exact ⟨rfl, hheader⟩
      · intro h
        obtain ⟨heq, hheader⟩ := h
        cases heq
        exact ⟨hheader, rfl⟩

theorem site?_of_inHeader {v : Position × Node} (h : v.1.inHeader) : site? v = none := by
  refine Option.eq_none_iff_forall_ne_some.mpr fun c hc => ?_
  obtain ⟨rfl, hheader⟩ := site?_eq_some.mp hc
  exact hheader h

theorem mem_sites {ns : List Node} {c : Site} :
    c ∈ sites ns ↔ nodeAt? ns c.position = some c.node ∧ ¬ c.position.inHeader := by
  rw [sites, List.mem_filterMap, ← mem_walk]
  constructor
  · intro h
    obtain ⟨v, hv, hc⟩ := h
    obtain ⟨rfl, hheader⟩ := site?_eq_some.mp hc
    exact ⟨hv, hheader⟩
  · intro h
    exact ⟨_, h.1, site?_eq_some.mpr ⟨rfl, h.2⟩⟩

theorem map_sites_sublist (vs : List (Position × Node)) :
    ((vs.filterMap site?).map fun c => (c.position, c.node)).Sublist vs := by
  induction vs with
  | nil => exact .slnil
  | cons v vs ih =>
      cases hv : site? v with
      | none =>
          rw [List.filterMap_cons_none hv]
          exact ih.cons v
      | some c =>
          rw [List.filterMap_cons_some hv, List.map_cons, ← (site?_eq_some.mp hv).1]
          exact ih.cons_cons v

theorem nodup_positions_sites (ns : List Node) : ((sites ns).map Site.position).Nodup := by
  have hsublist := (map_sites_sublist (walk ns)).map Prod.fst
  rw [List.map_map] at hsublist
  exact (nodup_walk ns).sublist hsublist

/-- If start rows never decrease along the whole walk, they do not along the
class statements. -/
theorem pairwise_rows_sites {ns : List Node}
    (h : ((walk ns).map fun v => v.2.extent.row).Pairwise (· ≤ ·)) :
    ((sites ns).map fun c => c.extent.row).Pairwise (· ≤ ·) := by
  have hsublist := (map_sites_sublist (walk ns)).map fun v => v.2.extent.row
  rw [List.map_map] at hsublist
  exact h.sublist hsublist

/-! ## Arrangements -/

/-- Class statements arranged as a forest. -/
structure SiteTree where
  site : Site
  inside : List SiteTree

mutual

/-- The declarations of an arrangement: each class statement with those that are
arranged inside it as its nested classes. -/
def SiteTree.declaration (s : String) : SiteTree → ClassDeclaration
  | ⟨c, inside⟩ =>
    { name := nameOf c.children
      bases := (superclassesOf c.children).filterMap (Node.base? s)
      line := c.extent.row + 1
      nested := declarationsOf s inside }

def declarationsOf (s : String) : List SiteTree → List ClassDeclaration
  | [] => []
  | t :: rest => t.declaration s :: declarationsOf s rest

end

mutual

/-- The class statements of an arrangement in pre-order, each with the position
of the one that it is directly inside; `outer` is that of the outermost ones. -/
def SiteTree.links (outer : Option Position) : SiteTree → List (Site × Option Position)
  | ⟨c, inside⟩ => (c, outer) :: linksOf (some c.position) inside

def linksOf (outer : Option Position) : List SiteTree → List (Site × Option Position)
  | [] => []
  | t :: rest => t.links outer ++ linksOf outer rest

end

/-- What is declared of a class statement besides the classes inside it. -/
def Site.declared (s : String) (c : Site) : String × List Base × Nat :=
  (nameOf c.children, (superclassesOf c.children).filterMap (Node.base? s), c.extent.row + 1)

mutual

theorem map_preorder_declaration (s : String) (outer : Option Position) :
    ∀ t : SiteTree, (t.declaration s).preorder.map (fun d => (d.name, d.bases, d.line)) =
      (t.links outer).map fun link => link.1.declared s
  | ⟨c, inside⟩ => by
    rw [SiteTree.declaration, ClassDeclaration.preorder, SiteTree.links, List.map_cons,
      List.map_cons, map_preorderOf_declarationsOf s (some c.position) inside]
    rfl

theorem map_preorderOf_declarationsOf (s : String) (outer : Option Position) :
    ∀ ts : List SiteTree,
      (preorderOf (declarationsOf s ts)).map (fun d => (d.name, d.bases, d.line)) =
        (linksOf outer ts).map fun link => link.1.declared s
  | [] => rfl
  | t :: rest => by
    rw [declarationsOf, preorderOf, linksOf, List.map_append, List.map_append,
      map_preorder_declaration s outer t, map_preorderOf_declarationsOf s outer rest]

end

theorem declarationsOf_append (s : String) (ts us : List SiteTree) :
    declarationsOf s (ts ++ us) = declarationsOf s ts ++ declarationsOf s us := by
  induction ts with
  | nil => rfl
  | cons t ts ih => rw [List.cons_append, declarationsOf, declarationsOf, ih, List.cons_append]

theorem linksOf_append (outer : Option Position) (ts us : List SiteTree) :
    linksOf outer (ts ++ us) = linksOf outer ts ++ linksOf outer us := by
  induction ts with
  | nil => rfl
  | cons t ts ih => rw [List.cons_append, linksOf, linksOf, ih, List.append_assoc]

/-! ### The arrangement of a source -/

mutual

/-- The class statements of a node in the order and under each other as they
are declared. -/
def Node.siteTrees (p : Position) : Node → List SiteTree
  | .branch _ _ _ children => siteTreesOf p 0 children
  | .classDef extent children => [⟨⟨p, extent, children⟩, bodyTrees p 0 children⟩]

def siteTreesOf (above : Position) (number : Nat) : List Node → List SiteTree
  | [] => []
  | n :: rest => n.siteTrees (⟨.inside, number⟩ :: above) ++ siteTreesOf above (number + 1) rest

/-- The class statements in the body of a class statement with these children. -/
def bodyTrees (above : Position) (number : Nat) : List Node → List SiteTree
  | [] => []
  | n :: rest =>
    if n.field = some .body then n.siteTrees (⟨.body, number⟩ :: above)
    else bodyTrees above (number + 1) rest

end

mutual

theorem declarationsOf_siteTrees (s : String) (p : Position) :
    ∀ n : Node, declarationsOf s (n.siteTrees p) = n.classes s
  | .branch form field extent children => by
    rw [Node.siteTrees, Node.classes, declarationsOf_siteTreesOf s p 0 children]
  | .classDef extent children => by
    rw [Node.siteTrees, Node.classes, declarationsOf, declarationsOf, SiteTree.declaration,
      declarationsOf_bodyTrees s p 0 children]

theorem declarationsOf_siteTreesOf (s : String) (above : Position) (number : Nat) :
    ∀ ns : List Node, declarationsOf s (siteTreesOf above number ns) = classesOf s ns
  | [] => rfl
  | n :: rest => by
    rw [siteTreesOf, classesOf, declarationsOf_append, declarationsOf_siteTrees s _ n,
      declarationsOf_siteTreesOf s above (number + 1) rest]

theorem declarationsOf_bodyTrees (s : String) (above : Position) (number : Nat) :
    ∀ ns : List Node, declarationsOf s (bodyTrees above number ns) = bodyClasses s ns
  | [] => rfl
  | n :: rest => by
    rw [bodyTrees, bodyClasses]
    split
    · exact declarationsOf_siteTrees s _ n
    · exact declarationsOf_bodyTrees s above (number + 1) rest

end

theorem inHeader_cons {step : Step} {above : Position} :
    Position.inHeader (step :: above) ↔ step.place = .header ∨ above.inHeader := by
  simp [Position.inHeader]

theorem filterMap_site?_header {place : Nat → Place} {number : Nat}
    (hplace : ∀ i, number ≤ i → place i = .header) (above : Position) (ns : List Node) :
    (visitsOf above place number ns).filterMap site? = [] := by
  refine List.filterMap_eq_nil_iff.mpr fun v hv => site?_of_inHeader ?_
  obtain ⟨i, hi, hsuffix⟩ := exists_suffix_of_mem_visitsOf hv
  exact inHeader_of_suffix hsuffix (inHeader_cons.mpr (.inl (hplace i hi)))

theorem filterMap_site?_visits_header (above : Position) (number : Nat) (n : Node) :
    (n.visits (⟨.header, number⟩ :: above)).filterMap site? = [] := by
  refine List.filterMap_eq_nil_iff.mpr fun v hv => site?_of_inHeader ?_
  exact inHeader_of_suffix (n.suffix_of_mem_visits hv) (inHeader_cons.mpr (.inl rfl))

mutual

theorem linksOf_siteTrees {p : Position} (hp : ¬ p.inHeader) :
    ∀ n : Node, linksOf p.home? (n.siteTrees p) = ((n.visits p).filterMap site?).map Site.housed
  | .branch form field extent children => by
    rw [Node.siteTrees, Node.visits, List.filterMap_cons_none rfl]
    exact linksOf_siteTreesOf hp 0 children
  | .classDef extent children => by
    have hsite : site? (p, .classDef extent children) = some ⟨p, extent, children⟩ := if_neg hp
    have hbody : linksOf (some p) (bodyTrees p 0 children) =
        ((visitsOf p (Node.place (.classDef extent children)) 0 children).filterMap site?).map
          Site.housed :=
      linksOf_bodyTrees hp 0 children fun i => by rw [Nat.zero_add]; rfl
    rw [Node.siteTrees, Node.visits, List.filterMap_cons_some hsite, List.map_cons, linksOf,
      linksOf, SiteTree.links, hbody, List.append_nil]
    rfl

theorem linksOf_siteTreesOf {above : Position} (habove : ¬ above.inHeader) (number : Nat) :
    ∀ ns : List Node, linksOf above.home? (siteTreesOf above number ns) =
      ((visitsOf above (fun _ => .inside) number ns).filterMap site?).map Site.housed
  | [] => rfl
  | n :: rest => by
    have hstep : ¬ Position.inHeader (⟨.inside, number⟩ :: above) :=
      inHeader_cons.not.mpr (not_or.mpr ⟨show Place.inside ≠ .header by decide, habove⟩)
    -- A step that leads into no class statement keeps the home.
    have hn : linksOf above.home? (n.siteTrees (⟨.inside, number⟩ :: above)) =
        ((n.visits (⟨.inside, number⟩ :: above)).filterMap site?).map Site.housed :=
      linksOf_siteTrees hstep n
    rw [siteTreesOf, visitsOf, linksOf_append, hn, linksOf_siteTreesOf habove (number + 1) rest,
      List.filterMap_append, List.map_append]

/-- Of the children of a class statement, only the body has class statements to
declare. -/
theorem linksOf_bodyTrees {above : Position} (habove : ¬ above.inHeader)
    {place : Nat → Place} (number : Nat) :
    ∀ ns : List Node,
      (∀ i, place (number + i) =
        if ns.findIdx? (·.field = some .body) = some i then .body else .header) →
      linksOf (some above) (bodyTrees above number ns) =
        ((visitsOf above place number ns).filterMap site?).map Site.housed
  | [], _ => rfl
  | n :: rest, hplace => by
    rw [bodyTrees, visitsOf, List.filterMap_append]
    rw [List.findIdx?_cons] at hplace
    have hnumber := hplace 0
    split
    · next hbody =>
        simp only [hbody, decide_true, if_true, Option.some.injEq, Nat.add_zero] at hnumber hplace
        have hrest : ∀ i, number + 1 ≤ i → place i = .header := by
          intro i hi
          rw [← Nat.add_sub_of_le (Nat.le_of_succ_le hi), hplace, if_neg (by omega)]
        have hstep : ¬ Position.inHeader (⟨.body, number⟩ :: above) :=
          inHeader_cons.not.mpr (not_or.mpr ⟨show Place.body ≠ .header by decide, habove⟩)
        rw [hnumber, filterMap_site?_header hrest, List.append_nil]
        exact linksOf_siteTrees hstep n
    · next hbody =>
        simp only [hbody, decide_false, Bool.false_eq_true, if_false] at hnumber hplace
        have hheader : place number = .header := by simpa using hnumber
        rw [hheader, filterMap_site?_visits_header, List.nil_append]
        refine linksOf_bodyTrees habove (number + 1) rest fun i => ?_
        rw [Nat.add_right_comm, Nat.add_assoc, hplace]
        simp

end

/-- The forest that is declared by a source has the class statements outside the
headers of others, each once and in pre-order, and every one of them is directly
under the innermost one that has it in its body. So lines never decrease along
the forest if they do not along the source; and for a source that is parsed they
never do. -/
theorem classesOf_exact (s : String) (ns : List Node) :
    ((sites ns).map Site.position).Nodup ∧
    (∀ c : Site, c ∈ sites ns ↔ nodeAt? ns c.position = some c.node ∧ ¬ c.position.inHeader) ∧
    (preorderOf (classesOf s ns)).map (fun d => (d.name, d.bases, d.line)) =
      (sites ns).map (fun c => (nameOf c.children,
        (superclassesOf c.children).filterMap (Node.base? s), c.extent.row + 1)) ∧
    (∃ forest : List SiteTree, declarationsOf s forest = classesOf s ns ∧
      linksOf none forest = (sites ns).map fun c => (c, c.position.home?)) ∧
    (((walk ns).map fun v => v.2.extent.row).Pairwise (· ≤ ·) →
      (linesOf (classesOf s ns)).Pairwise (· ≤ ·)) ∧
    ∀ input, treesOf input = .ok ns → (linesOf (classesOf s ns)).Pairwise (· ≤ ·) := by
  have hforest := declarationsOf_siteTreesOf s [] 0 ns
  have htop : ¬ Position.inHeader [] := by decide
  have hlinks : linksOf none (siteTreesOf [] 0 ns) = (sites ns).map Site.housed :=
    linksOf_siteTreesOf htop 0 ns
  have hpreorder : (preorderOf (classesOf s ns)).map (fun d => (d.name, d.bases, d.line)) =
      (sites ns).map (Site.declared s) := by
    rw [← hforest, map_preorderOf_declarationsOf s none, hlinks, List.map_map]
    rfl
  have hlines : linesOf (classesOf s ns) = (sites ns).map fun c => c.extent.row + 1 := by
    have hmap := congrArg (List.map fun x => x.2.2) hpreorder
    rwa [List.map_map, List.map_map] at hmap
  refine ⟨nodup_positions_sites ns, fun c => mem_sites, hpreorder, ⟨_, hforest, hlinks⟩, ?_, ?_⟩
  · intro hwalk
    have hrows := pairwise_rows_sites hwalk
    rw [List.pairwise_map] at hrows
    rw [hlines, List.pairwise_map]
    exact hrows.imp Nat.succ_le_succ
  · intro input hparsed
    exact pairwise_lines_of_treesOf hparsed s

end Extension

/-! ## A hedge

Once as a tree of which no source could be the text, since a class statement
stands in a header; and once as a text. -/

namespace Hedge

open Extension

/-- A class statement without bases. -/
def statement (name : String) (extent : Extent) (body : List Node) : Node :=
  .classDef extent
    [.branch (.identifier name) (some .name) extent [], .branch .block (some .body) extent body]

/-- `Weed` is in the header of `Hedge`. In its body `Bud` is decorated, and `Leaf`,
which has `Vein` inside it, stands in a function. `Root` is in a condition. -/
def tree : List Node :=
  [.classDef ⟨0, 0, 90⟩
     [.branch (.identifier "Hedge") (some .name) ⟨0, 6, 11⟩ [],
      .branch .typeParameters none ⟨0, 11, 30⟩ [statement "Weed" ⟨0, 12, 29⟩ []],
      .branch .arguments (some .superclasses) ⟨1, 31, 38⟩
        [.leaf (.identifier "Thorn") ⟨1, 32, 37⟩],
      .branch .block (some .body) ⟨2, 40, 90⟩
        [.branch .other none ⟨2, 40, 55⟩ [statement "Bud" ⟨3, 46, 55⟩ []],
         .branch .other none ⟨4, 56, 90⟩
           [.branch .block none ⟨5, 60, 90⟩
             [statement "Leaf" ⟨5, 60, 90⟩ [statement "Vein" ⟨6, 75, 90⟩ []]]]]],
   .branch .other none ⟨7, 91, 120⟩ [statement "Root" ⟨8, 100, 120⟩ []]]

def text : String :=
  "class Hedge(Thorn):\n  @grow\n  class Bud: pass\n  def trim(self):\n    class Leaf: pass\n"

/-- Where the statement of `Hedge` is. -/
def hedge : Position :=
  [⟨.inside, 0⟩]

theorem classesOf_exact_hedge :
    ((walk tree).map fun v => v.2.extent.row).Pairwise (· ≤ ·) ∧
    (sites tree).map (fun c => (nameOf c.children, c.position.home?)) =
      [("Hedge", none), ("Bud", some hedge), ("Leaf", some hedge),
       ("Vein", some (⟨.inside, 0⟩ :: ⟨.inside, 0⟩ :: ⟨.inside, 1⟩ :: ⟨.body, 3⟩ :: hedge)),
       ("Root", none)] ∧
    linesOf (classesOf text tree) = [1, 4, 6, 7, 9] ∧
    (linesOf (classesOf text tree)).Pairwise (· ≤ ·) ∧
    ∃ ns, treesOf text.toList = .ok ns ∧ linesOf (classesOf text ns) = [1, 3, 5] ∧
      (linesOf (classesOf text ns)).Pairwise (· ≤ ·) := by
  have hwalk : ((walk tree).map fun v => v.2.extent.row).Pairwise (· ≤ ·) := by decide
  have hparsed : (treesOf text.toList).map (fun ns => linesOf (classesOf text ns)) =
      .ok [1, 3, 5] := by decide +kernel
  obtain ⟨-, -, -, -, hlines, -⟩ := classesOf_exact text tree
  refine ⟨hwalk, by decide, by decide, hlines hwalk, ?_⟩
  cases htrees : treesOf text.toList with
  | error row? =>
      rw [htrees] at hparsed
      cases hparsed
  | ok ns =>
      rw [htrees] at hparsed
      obtain ⟨-, -, -, -, -, hread⟩ := classesOf_exact text ns
      exact ⟨ns, rfl, Except.ok.inj hparsed, hread text.toList htrees⟩

end Hedge

end ProtoSchema
