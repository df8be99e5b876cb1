import ProtoSchema.Proofs.Validation

/-!
# A generated class is extended once

The classes of an extension file form a forest, and the bare bases of its
classes form a sequence: a class's own bases, then those of the classes inside
it, then those of its siblings. Overrides are collected along this sequence and
refused at the first base that was there before. So what comes out is settled
by the sequence alone. If it has no repetition, every base stands for the class
that lists it and every other name for itself.

The order of siblings only permutes the sequence. A permutation keeps both its
length and the absence of repetitions, and a table without repetitions answers
by membership, so sibling order decides no more than which of two repeated bases
is the one that an error names.
-/

namespace ProtoSchema

open ProtoSchema.Extension (ClassDeclaration)

namespace Extension

/-! ## Forests -/

mutual

/-- A class and the classes inside it, the class itself first. -/
def ClassDeclaration.preorder : ClassDeclaration → List ClassDeclaration
  | ⟨name, bases, line, nested⟩ => ⟨name, bases, line, nested⟩ :: preorderOf nested

def preorderOf : List ClassDeclaration → List ClassDeclaration
  | [] => []
  | d :: rest => d.preorder ++ preorderOf rest

end

/-- The bare bases of a forest, class by class. -/
def basesOf (ds : List ClassDeclaration) : List String :=
  (preorderOf ds).flatMap ClassDeclaration.simpleBases

/-- Two forests that differ in the order of siblings, at any depth, and in the
lines where the classes stand. -/
inductive Reordered : List ClassDeclaration → List ClassDeclaration → Prop
  | nil : Reordered [] []
  | cons {name : String} {bases : List Base} {line line' : Nat}
      {nested nested' rest rest' : List ClassDeclaration} (hnested : Reordered nested nested')
      (hrest : Reordered rest rest') :
      Reordered (⟨name, bases, line, nested⟩ :: rest) (⟨name, bases, line', nested'⟩ :: rest')
  | swap (d d' : ClassDeclaration) (rest : List ClassDeclaration) :
      Reordered (d :: d' :: rest) (d' :: d :: rest)
  | trans {ds ds' ds'' : List ClassDeclaration} (h : Reordered ds ds') (h' : Reordered ds' ds'') :
      Reordered ds ds''

/-- The bare bases of a class, each with the name of the class. -/
def ClassDeclaration.extended (d : ClassDeclaration) : List (String × String) :=
  d.simpleBases.map (·, d.name)

mutual

theorem ClassDeclaration.extensions_eq : ∀ d : ClassDeclaration,
    d.extensions = d.preorder.flatMap ClassDeclaration.extended
  | ⟨name, bases, line, nested⟩ => by
    rw [ClassDeclaration.extensions, ClassDeclaration.preorder, List.flatMap_cons,
      extensionsOf_eq nested]
    rfl

theorem extensionsOf_eq : ∀ ds : List ClassDeclaration,
    extensionsOf ds = (preorderOf ds).flatMap ClassDeclaration.extended
  | [] => rfl
  | d :: rest => by
    rw [extensionsOf, preorderOf, List.flatMap_append, d.extensions_eq, extensionsOf_eq rest]

end

theorem map_fst_extensionsOf (ds : List ClassDeclaration) :
    (extensionsOf ds).map Prod.fst = basesOf ds := by
  rw [extensionsOf_eq, List.map_flatMap, basesOf]
  congr 1
  funext d
  rw [ClassDeclaration.extended, List.map_map]
  exact List.map_id _

theorem mem_extensionsOf {ds : List ClassDeclaration} {base name : String} :
    (base, name) ∈ extensionsOf ds ↔
      ∃ d ∈ preorderOf ds, base ∈ d.simpleBases ∧ d.name = name := by
  simp [extensionsOf_eq, ClassDeclaration.extended]

theorem Reordered.perm {ds ds' : List ClassDeclaration} (h : Reordered ds ds') :
    (extensionsOf ds).Perm (extensionsOf ds') := by
  induction h with
  | nil => exact List.Perm.nil
  | cons hnested hrest ihnested ihrest =>
      simp only [extensionsOf, ClassDeclaration.extensions]
      exact (ihnested.append_left _).append ihrest
  | swap d d' rest =>
      simp only [extensionsOf, ← List.append_assoc]
      exact List.perm_append_comm.append_right _
  | trans _ _ ih ih' => exact ih.trans ih'

end Extension

/-- A list has a repetition exactly if one element stands at two places. -/
theorem not_nodup_iff_exists {names : List String} :
    ¬ names.Nodup ↔
      ∃ (i j : Nat) (n : String), i < j ∧ names[i]? = some n ∧ names[j]? = some n := by
  simp only [List.nodup_iff_getElem?_ne_getElem?, not_forall, not_not, ne_eq]
  constructor
  · rintro ⟨i, j, hij, hj, heq⟩
    exact ⟨i, j, names[j], hij, heq.trans (List.getElem?_eq_getElem hj),
      List.getElem?_eq_getElem hj⟩
  · rintro ⟨i, j, n, hij, hi, hj⟩
    obtain ⟨hlt, -⟩ := List.getElem?_eq_some_iff.mp hj
    exact ⟨i, j, hij, hlt, hi.trans hj.symm⟩

namespace Overrides

/-! ## Looking up -/

/-- The generated classes that have another class to stand in for them. -/
def bases (o : Overrides) : List String :=
  o.entries.map Prod.fst

theorem find?_eq_none {o : Overrides} {n : String} : o.find? n = none ↔ n ∉ o.bases := by
  rw [find?, List.lookup_eq_none_iff]
  simp only [bases, bne_iff_ne, List.mem_map, not_exists, not_and]
  exact forall_congr' fun entry => imp_congr_right fun _ => ⟨Ne.symm, Ne.symm⟩

/-- In a table without repetitions, looking up is membership. -/
theorem find?_eq_some {o : Overrides} (h : o.bases.Nodup) {n other : String} :
    o.find? n = some other ↔ (n, other) ∈ o.entries := by
  rw [find?, List.lookup_eq_some_iff]
  constructor
  · rintro ⟨before, after, hsplit, -⟩
    simp [hsplit]
  · intro hmem
    obtain ⟨before, after, hsplit⟩ := List.append_of_mem hmem
    refine ⟨before, after, hsplit, fun entry hentry => ?_⟩
    rw [bases, hsplit, List.map_append, List.map_cons, List.nodup_append] at h
    have hne := h.2.2 entry.1 (List.mem_map_of_mem hentry) n List.mem_cons_self
    simpa using hne.symm

theorem resolve_of_mem {o : Overrides} (h : o.bases.Nodup) {n other : String}
    (hmem : (n, other) ∈ o.entries) : o.resolve n = other := by
  rw [resolve, (find?_eq_some h).mpr hmem, Option.getD_some]

theorem resolve_of_notMem {o : Overrides} {n : String} (h : n ∉ o.bases) : o.resolve n = n := by
  rw [resolve, find?_eq_none.mpr h, Option.getD_none]

theorem resolve_eq_of_perm {o o' : Overrides} (h : o.entries.Perm o'.entries)
    (hnodup : o.bases.Nodup) (n : String) : o'.resolve n = o.resolve n := by
  have hbases : o.bases.Perm o'.bases := h.map Prod.fst
  by_cases hn : n ∈ o.bases
  · obtain ⟨⟨_, other⟩, hmem, rfl⟩ := List.mem_map.mp hn
    rw [resolve_of_mem hnodup hmem, resolve_of_mem (hbases.nodup hnodup) (h.mem_iff.mp hmem)]
  · rw [resolve_of_notMem hn, resolve_of_notMem fun hn' => hn (hbases.mem_iff.mpr hn')]

/-! ## Collecting

One step adds a base that is new and refuses any other, so a run of steps stops
at the first base that comes again. -/

theorem add_of_notMem {file : String} {o : Overrides} {x : String × String}
    (h : x.1 ∉ o.bases) : add file o x = .ok { o with entries := o.entries ++ [x] } := by
  rw [add, find?_eq_none.mpr h]

theorem add_of_mem {file : String} {o : Overrides} {x : String × String} (h : x.1 ∈ o.bases) :
    add file o x = .error (.duplicateExtension x.1 file) := by
  rw [add]
  split
  · rfl
  · next hnone => exact absurd h (find?_eq_none.mp hnone)

theorem foldlM_add {file : String} {xs : List (String × String)} :
    ∀ {o : Overrides} {seen : List String}, (∀ n, n ∈ seen ↔ n ∈ o.bases) →
      xs.foldlM (add file) o =
        match repeats seen (xs.map Prod.fst) with
        | [] => .ok { o with entries := o.entries ++ xs }
        | base :: _ => .error (.duplicateExtension base file) := by
  induction xs with
  | nil =>
      intro o seen _
      simp [repeats, pure, Except.pure]
  | cons x xs ih =>
      intro o seen hseen
      rw [List.foldlM_cons, List.map_cons, repeats]
      by_cases hx : x.1 ∈ o.bases
      · rw [add_of_mem hx, if_pos ((hseen x.1).mpr hx)]
        rfl
      · have hstep : ∀ n, n ∈ x.1 :: seen ↔
            n ∈ bases { o with entries := o.entries ++ [x] } := by
          intro n
          rw [List.mem_cons, hseen n, bases, bases, List.map_append, List.mem_append,
            List.map_singleton, List.mem_singleton]
          exact or_comm
        rw [add_of_notMem hx, if_neg (mt (hseen x.1).mp hx), List.nil_append]
        refine (ih hstep).trans ?_
        rw [List.append_assoc, List.singleton_append]

theorem ofDeclarations_eq (file module : String) (ds : List ClassDeclaration) :
    ofDeclarations file module ds =
      match repeats [] (Extension.basesOf ds) with
      | [] => .ok { module, entries := Extension.extensionsOf ds }
      | base :: _ => .error (.duplicateExtension base file) := by
  have hnone : ∀ n, n ∈ ([] : List String) ↔ n ∈ (empty module).bases := fun n => Iff.rfl
  rw [ofDeclarations, foldlM_add hnone, Extension.map_fst_extensionsOf]
  rfl

theorem ofDeclarations_eq_ok {file module : String} {ds : List ClassDeclaration} {o : Overrides} :
    ofDeclarations file module ds = .ok o ↔
      (Extension.basesOf ds).Nodup ∧ o = { module, entries := Extension.extensionsOf ds } := by
  rw [ofDeclarations_eq]
  cases h : repeats [] (Extension.basesOf ds) with
  | nil =>
      have hnodup := (repeats_eq_nil.mp h).1
      exact ⟨fun ho => ⟨hnodup, (Except.ok.inj ho).symm⟩, fun ho => congrArg _ ho.2.symm⟩
  | cons base rest =>
      refine ⟨fun ho => (nomatch ho), fun ho => ?_⟩
      rw [repeats_eq_nil.mpr ⟨ho.1, by simp⟩] at h
      cases h

theorem ofDeclarations_eq_error {file module : String} {ds : List ClassDeclaration} {e : Error} :
    ofDeclarations file module ds = .error e ↔
      ∃ base, FirstRepeat base (Extension.basesOf ds) ∧ e = .duplicateExtension base file := by
  rw [ofDeclarations_eq]
  cases h : repeats [] (Extension.basesOf ds) with
  | nil =>
      refine ⟨fun he => (nomatch he), ?_⟩
      rintro ⟨base, hfirst, -⟩
      exact absurd (repeats_eq_nil.mp h).1 hfirst.not_nodup
  | cons base rest =>
      have hfirst := firstRepeat_of_repeats h
      constructor
      · exact fun he => ⟨base, hfirst, (Except.error.inj he).symm⟩
      · rintro ⟨base', hfirst', rfl⟩
        rw [hfirst.unique hfirst']

theorem exists_error_iff {file module : String} {ds : List ClassDeclaration} :
    (∃ e, ofDeclarations file module ds = .error e) ↔ ¬ (Extension.basesOf ds).Nodup := by
  constructor
  · rintro ⟨e, he⟩
    obtain ⟨base, hfirst, -⟩ := ofDeclarations_eq_error.mp he
    exact hfirst.not_nodup
  · intro hrepeat
    cases ho : ofDeclarations file module ds with
    | error e => exact ⟨e, rfl⟩
    | ok o => exact absurd (ofDeclarations_eq_ok.mp ho).1 hrepeat

theorem bases_of_ok {file module : String} {ds : List ClassDeclaration} {o : Overrides}
    (h : ofDeclarations file module ds = .ok o) :
    o.bases = Extension.basesOf ds ∧ o.bases.Nodup := by
  obtain ⟨hnodup, rfl⟩ := ofDeclarations_eq_ok.mp h
  rw [← Extension.map_fst_extensionsOf] at hnodup
  exact ⟨Extension.map_fst_extensionsOf ds, hnodup⟩

theorem mem_entries_of_ok {file module : String} {ds : List ClassDeclaration} {o : Overrides}
    (h : ofDeclarations file module ds = .ok o) {base name : String} :
    (base, name) ∈ o.entries ↔
      ∃ d ∈ Extension.preorderOf ds, base ∈ d.simpleBases ∧ d.name = name := by
  obtain ⟨-, rfl⟩ := ofDeclarations_eq_ok.mp h
  exact Extension.mem_extensionsOf

theorem exists_ok_of_reordered {file module : String} {ds ds' : List ClassDeclaration}
    (h : Extension.Reordered ds ds') :
    (∃ o, ofDeclarations file module ds' = .ok o) ↔ ∃ o, ofDeclarations file module ds = .ok o := by
  have hnodup : (Extension.basesOf ds').Nodup ↔ (Extension.basesOf ds).Nodup := by
    rw [← Extension.map_fst_extensionsOf, ← Extension.map_fst_extensionsOf]
    exact (h.perm.map Prod.fst).nodup_iff.symm
  simp only [ofDeclarations_eq_ok, exists_and_left, exists_eq, and_true]
  exact hnodup

theorem entries_perm_of_reordered {file module : String} {ds ds' : List ClassDeclaration}
    {o o' : Overrides} (h : Extension.Reordered ds ds') (ho : ofDeclarations file module ds = .ok o)
    (ho' : ofDeclarations file module ds' = .ok o') : o.entries.Perm o'.entries := by
  obtain ⟨-, rfl⟩ := ofDeclarations_eq_ok.mp ho
  obtain ⟨-, rfl⟩ := ofDeclarations_eq_ok.mp ho'
  exact h.perm

/-- Collecting a forest is refused exactly if its sequence of bare bases has
one at two places, and the error names the first that comes again. Otherwise
every bare base has an entry with the class that lists it, and there are no
other entries; other names stand for themselves. None of this depends on the
order of siblings. -/
theorem ofDeclarations_exact (file module : String) (ds : List ClassDeclaration) :
    let bases := Extension.basesOf ds
    let outcome := ofDeclarations file module ds
    ((∃ e, outcome = .error e) ↔
      ∃ (i j : Nat) (base : String), i < j ∧ bases[i]? = some base ∧ bases[j]? = some base) ∧
    (∀ e, outcome = .error e ↔
      ∃ base, FirstRepeat base bases ∧ e = .duplicateExtension base file) ∧
    (∀ o, outcome = .ok o →
      o.module = module ∧ o.size = bases.length ∧
      (∀ base name, (base, name) ∈ o.entries ↔
        ∃ d ∈ Extension.preorderOf ds, base ∈ d.simpleBases ∧ d.name = name) ∧
      (∀ d ∈ Extension.preorderOf ds, ∀ base ∈ d.simpleBases, o.resolve base = d.name) ∧
      ∀ n, n ∉ bases → o.resolve n = n) ∧
    ∀ ds', Extension.Reordered ds ds' →
      ((∃ o, ofDeclarations file module ds' = .ok o) ↔ ∃ o, outcome = .ok o) ∧
      ∀ o o', outcome = .ok o → ofDeclarations file module ds' = .ok o' →
        o'.size = o.size ∧ ∀ n, o'.resolve n = o.resolve n := by
  intro bases outcome
  refine ⟨exists_error_iff.trans not_nodup_iff_exists, fun e => ofDeclarations_eq_error, ?_, ?_⟩
  · intro o ho
    obtain ⟨hbases, hnodup⟩ := bases_of_ok ho
    refine ⟨?_, ?_, fun base name => mem_entries_of_ok ho, ?_, ?_⟩
    · rw [(ofDeclarations_eq_ok.mp ho).2]
    · rw [size, ← List.length_map Prod.fst]
      exact congrArg List.length hbases
    · intro d hd base hbase
      exact resolve_of_mem hnodup ((mem_entries_of_ok ho).mpr ⟨d, hd, hbase, rfl⟩)
    · intro n hn
      apply resolve_of_notMem
      rw [hbases]
      exact hn
  · intro ds' hreordered
    refine ⟨exists_ok_of_reordered hreordered, fun o o' ho ho' => ?_⟩
    have hperm := entries_perm_of_reordered hreordered ho ho'
    exact ⟨hperm.length_eq.symm, resolve_eq_of_perm hperm (bases_of_ok ho).2⟩

end Overrides

/-! A file whose first class has another one inside it. -/

namespace Willow

def inner : ClassDeclaration :=
  { name := "Catkin", bases := [.name "WillowBud"], line := 2, nested := [] }

def outer : ClassDeclaration :=
  { name := "Branch", bases := [.dynamic "graphene.Interface", .name "WillowTwig"], line := 1
    nested := [inner] }

def sibling : ClassDeclaration :=
  { name := "Root", bases := [.name "WillowStem", .name "WillowBark"], line := 4, nested := [] }

def overrides : Overrides :=
  { module := "ext"
    entries := [("WillowTwig", "Branch"), ("WillowBud", "Catkin"), ("WillowStem", "Root"),
      ("WillowBark", "Root")] }

theorem ofDeclarations_exact_siblings :
    Extension.Reordered [outer, sibling] [sibling, outer] ∧
    Overrides.ofDeclarations "ext.py" "ext" [outer, sibling] = .ok overrides ∧
    (∃ o, Overrides.ofDeclarations "ext.py" "ext" [sibling, outer] = .ok o) ∧
    inner ∈ Extension.preorderOf [outer, sibling] ∧ overrides.resolve "WillowBud" = "Catkin" ∧
    overrides.resolve "WillowLeaf" = "WillowLeaf" := by
  have hswap : Extension.Reordered [outer, sibling] [sibling, outer] := .swap outer sibling []
  have hok : Overrides.ofDeclarations "ext.py" "ext" [outer, sibling] = .ok overrides :=
    Overrides.ofDeclarations_eq_ok.mpr ⟨by decide, rfl⟩
  have hinner : inner ∈ Extension.preorderOf [outer, sibling] :=
    List.mem_cons_of_mem outer List.mem_cons_self
  obtain ⟨-, -, hentries, hsiblings⟩ :=
    Overrides.ofDeclarations_exact "ext.py" "ext" [outer, sibling]
  obtain ⟨-, -, -, hlisted, hother⟩ := hentries overrides hok
  exact ⟨hswap, hok, (hsiblings _ hswap).1.mpr ⟨_, hok⟩, hinner,
    hlisted inner hinner "WillowBud" (by decide), hother "WillowLeaf" (by decide)⟩

end Willow

end ProtoSchema
