import Mathlib.Data.List.Flatten
import Mathlib.Data.List.Nodup
import ProtoSchema.Extension.Parse
import ProtoSchema.Proofs.OverrideEntries
import ProtoSchema.Proofs.TokenOrder

/-!
# Classes are declared from top to bottom

A tree says of a class statement on which line it starts, and a grammar may put
nodes together as it likes. That the lines of a forest never decrease comes from
how a run uses its tokens up. What it reads is a part of the tokens in front of
it, and every class that it declares from there takes the line of a keyword
`class` in that part, a different one for each and in their order. This relation,
`Reads`, is the invariant of a run; sequences compose it, and the forms of nodes
do not touch it, because only class statements count.

The one thing to ask of a grammar is that it puts a class statement together
behind a keyword `class` and nowhere else. The rules of the language do.

The keywords themselves stand in their order because the lexer only goes forward,
and no token is read twice because each has a position of its own.
-/

namespace ProtoSchema.Extension

/-! ## Lines of classes -/

/-- The lines of the classes of a forest, in pre-order. -/
def linesOf (ds : List ClassDeclaration) : List Nat :=
  (preorderOf ds).map fun d => d.line

theorem linesOf_append (ds ds' : List ClassDeclaration) :
    linesOf (ds ++ ds') = linesOf ds ++ linesOf ds' := by
  induction ds with
  | nil => rfl
  | cons d ds ih =>
      simp only [linesOf] at ih ⊢
      rw [List.cons_append, preorderOf, preorderOf, List.map_append, List.map_append, ih,
        List.append_assoc]

theorem linesOf_singleton (d : ClassDeclaration) : linesOf [d] = d.line :: linesOf d.nested := by
  obtain ⟨name, bases, line, nested⟩ := d
  rw [linesOf, preorderOf, ClassDeclaration.preorder, preorderOf, List.append_nil, List.map_cons]
  rfl

theorem Token.isClass_of_accepts {t : Token} (h : (Terminal.keyword "class").accepts t.kind) :
    t.isClass := by
  rw [isClass, decide_eq_true_eq]
  cases hkind : t.kind with
  | name text =>
      rw [hkind] at h
      exact congrArg TokenKind.name (of_decide_eq_true h).symm
  | _ =>
      rw [hkind] at h
      cases h

namespace Node

variable (s : String)

/-- The lines of the classes that are declared by nodes. -/
def lines (ns : List Node) : List Nat :=
  linesOf (classesOf s ns)

theorem lines_cons (n : Node) (ns : List Node) :
    lines s (n :: ns) = linesOf (n.classes s) ++ lines s ns := by
  rw [lines, classesOf, linesOf_append, lines]

theorem lines_eq_flatMap (ns : List Node) :
    lines s ns = ns.flatMap fun n => linesOf (n.classes s) := by
  induction ns with
  | nil => rfl
  | cons n ns ih => rw [lines_cons, List.flatMap_cons, ih]

theorem lines_append (ns ms : List Node) : lines s (ns ++ ms) = lines s ns ++ lines s ms := by
  simp only [lines_eq_flatMap, List.flatMap_append]

theorem lines_branch (form : Form) (field : Option Field) (extent : Extent)
    (children : List Node) : lines s [.branch form field extent children] = lines s children := by
  rw [lines_cons, classes]
  exact List.append_nil _

theorem lines_trivia (ts : List Trivia) : lines s (ts.map ofTrivia) = [] := by
  induction ts with
  | nil => rfl
  | cons t ts ih =>
      rw [List.map_cons, lines_cons, ih, ofTrivia]
      cases t.kind with
      | comment => rfl
      | joining => rfl

theorem lines_labelOf (field : Field) (ns : List Node) :
    lines s (labelOf field ns) = lines s ns := by
  have hlabel : ∀ n : Node, (n.label field).classes s = n.classes s := by
    intro n
    cases n with
    | branch form old extent children => rfl
    | classDef extent children => rfl
  rw [lines_eq_flatMap, lines_eq_flatMap, labelOf, List.flatMap_map]
  refine congrArg (fun f => ns.flatMap f) (funext fun n => ?_)
  split
  · rfl
  · rw [hlabel]

/-- The body is one of the children. -/
theorem lines_bodyClasses_sublist (ns : List Node) :
    (linesOf (bodyClasses s ns)).Sublist (lines s ns) := by
  induction ns with
  | nil => exact .slnil
  | cons n ns ih =>
      rw [bodyClasses, lines_cons]
      split
      · exact List.sublist_append_left _ _
      · exact ih.trans (List.sublist_append_right _ _)

theorem lines_classDef_sublist (extent : Extent) (ns : List Node) :
    (lines s [.classDef extent ns]).Sublist ((extent.row + 1) :: lines s ns) := by
  rw [lines_cons, classes, linesOf_singleton, show lines s [] = [] from rfl, List.append_nil]
  exact (lines_bodyClasses_sublist s ns).cons_cons (extent.row + 1)

end Node

/-! ## Runs of a grammar -/

/-- The token without what stands in front of it. -/
def Token.bare (t : Token) : Token :=
  { t with trivia := [] }

def Rest.bare (r : Rest) : List Token :=
  r.tokens.map Token.bare

/-- No two tokens have the same position. -/
def Rest.IsNumbered (r : Rest) : Prop :=
  (r.bare.map Token.index).Nodup

theorem Rest.index?_eq (r : Rest) : r.index? = (r.bare.map Token.index).head? := by
  rw [index?, bare, List.map_map, List.head?_map]
  rfl

theorem Rest.bare_splitTrivia (r : Rest) : r.splitTrivia.2.bare = r.bare := by
  obtain ⟨tokens, stop⟩ := r
  cases tokens with
  | nil => rfl
  | cons t tokens => rfl

theorem Rest.IsNumbered.splitTrivia {r : Rest} (h : r.IsNumbered) :
    r.splitTrivia.2.IsNumbered := by
  rw [IsNumbered, Rest.bare_splitTrivia]
  exact h

theorem Rest.index?_splitTrivia (r : Rest) : r.splitTrivia.2.index? = r.index? := by
  rw [index?_eq, index?_eq, bare_splitTrivia]

theorem Rest.lines_splitTrivia (s : String) (r : Rest) : Node.lines s r.splitTrivia.1 = [] := by
  obtain ⟨tokens, stop⟩ := r
  cases tokens with
  | nil => rfl
  | cons t tokens => exact Node.lines_trivia s t.trivia

/-- Nodes come from what stands in `rest` in front of `after`: each class that
they declare is on the line of a keyword of its own there. -/
def Reads (s : String) (rest : Rest) (nodes : List Node) (after : Rest) : Prop :=
  ∃ used, rest.bare = used ++ after.bare ∧ (Node.lines s nodes).Sublist (keywordLines used)

namespace Reads

variable {s : String} {rest after after' : Rest} {nodes nodes' : List Node}

theorem refl (s : String) (rest : Rest) : Reads s rest [] rest :=
  ⟨[], rfl, .slnil⟩

theorem trans (h : Reads s rest nodes after) (h' : Reads s after nodes' after') :
    Reads s rest (nodes ++ nodes') after' := by
  obtain ⟨used, hused, hlines⟩ := h
  obtain ⟨used', hused', hlines'⟩ := h'
  refine ⟨used ++ used', by rw [hused, hused', List.append_assoc], ?_⟩
  rw [Node.lines_append, keywordLines_append]
  exact hlines.append hlines'

theorem of_sublist (h : Reads s rest nodes after)
    (hlines : (Node.lines s nodes').Sublist (Node.lines s nodes)) : Reads s rest nodes' after := by
  obtain ⟨used, hused, hsublist⟩ := h
  exact ⟨used, hused, hlines.trans hsublist⟩

theorem isNumbered (h : Reads s rest nodes after) (hrest : rest.IsNumbered) :
    after.IsNumbered := by
  obtain ⟨used, hused, -⟩ := h
  rw [Rest.IsNumbered, hused, List.map_append] at hrest
  exact hrest.of_append_right

end Reads

/-- In front of the same token nothing has been used. -/
theorem eq_nil_of_index?_eq {rest after : Rest} {used : List Token} (hrest : rest.IsNumbered)
    (hused : rest.bare = used ++ after.bare) (h : rest.index? = after.index?) : used = [] := by
  cases used with
  | nil => rfl
  | cons t used =>
      rw [Rest.index?_eq, Rest.index?_eq, hused, List.map_append, List.map_cons] at h
      rw [Rest.IsNumbered, hused, List.map_append, List.map_cons, List.cons_append,
        List.nodup_cons] at hrest
      have hmem : t.index ∈ after.bare.map Token.index := List.mem_of_head? h.symm
      exact absurd (List.mem_append_right _ hmem) hrest.1

theorem Reads.lines_eq_nil {s : String} {rest after : Rest} {nodes : List Node}
    (h : Reads s rest nodes after) (hrest : rest.IsNumbered) (hindex : rest.index? = after.index?) :
    Node.lines s nodes = [] := by
  obtain ⟨used, hused, hlines⟩ := h
  rw [eq_nil_of_index?_eq hrest hused hindex] at hlines
  exact List.sublist_nil.mp hlines

namespace Grammar

variable {ρ : Type}

/-- Whether a grammar reads a keyword `class` first. -/
def startsClass : Grammar ρ → Bool
  | seq (term t) _ => t = .keyword "class"
  | _ => false

theorem eq_seq_of_startsClass {a : Grammar ρ} (h : a.startsClass) :
    ∃ b, a = seq (term (.keyword "class")) b := by
  unfold startsClass at h
  split at h
  · next t b => exact ⟨b, by rw [of_decide_eq_true h]⟩
  · cases h

/-- Whether class statements are put together only from what starts with a
keyword `class`. -/
def opensClasses : Grammar ρ → Bool
  | empty => true
  | term _ => true
  | rule _ => true
  | seq a b => a.opensClasses && b.opensClasses
  | alt a b => a.opensClasses && b.opensClasses
  | many a => a.opensClasses
  | ahead a => a.opensClasses
  | notAhead a => a.opensClasses
  | node _ a => a.opensClasses
  | join _ a => a.opensClasses
  | classNode a => a.startsClass && a.opensClasses
  | field _ a => a.opensClasses
  | check _ a => a.opensClasses
  | mark a => a.opensClasses

theorem opensClasses_definition (d : Dialect) (r : Rule) :
    (Rule.definition d r).opensClasses = true := by
  cases d <;> cases r <;> rfl

variable {rules : ρ → Grammar ρ} {s : String} {depth : Nat}

/-- Runs of that depth read what stands in front of them. -/
def ReadsAt (rules : ρ → Grammar ρ) (s : String) (depth : Nat) : Prop :=
  ∀ (g : Grammar ρ) (rest after : Rest) (trace trace' : Trace) (nodes : List Node),
    g.opensClasses → rest.IsNumbered →
    run rules depth g rest trace = (trace', some (nodes, after)) → Reads s rest nodes after

variable {a b : Grammar ρ} {rest after : Rest} {trace trace' : Trace} {nodes : List Node}

theorem reads_term {t : Terminal}
    (h : run rules (depth + 1) (term t) rest trace = (trace', some (nodes, after))) :
    ∃ (token : Token) (tokens : List Token), rest.tokens = token :: tokens ∧
      t.accepts token.kind ∧ after.tokens = tokens ∧ Node.lines s nodes = [] := by
  rw [run] at h
  split at h
  · cases h
  · next token tokens htokens =>
      dsimp only at h
      split at h
      · next haccepts =>
          cases h
          refine ⟨token, tokens, htokens, haccepts, rfl, ?_⟩
          rw [Node.lines_append, Node.lines_trivia, List.nil_append]
          cases t.form? token.kind with
          | none => rfl
          | some form => rfl
      · cases h

theorem run_seq_eq_some
    (h : run rules (depth + 1) (seq a b) rest trace = (trace', some (nodes, after))) :
    ∃ (seen : Trace) (xs ys : List Node) (between : Rest),
      run rules depth a rest trace = (seen, some (xs, between)) ∧
      run rules depth b between seen = (trace', some (ys, after)) ∧ nodes = xs ++ ys := by
  rw [run] at h
  split at h
  · cases h
  · next seen xs between hfirst =>
      split at h
      · cases h
      · next seen' ys last hsecond =>
          cases h
          exact ⟨seen, xs, ys, between, hfirst, hsecond, rfl⟩

theorem reads_seq (ih : ReadsAt rules s depth) (ha : a.opensClasses) (hb : b.opensClasses)
    (hrest : rest.IsNumbered)
    (h : run rules (depth + 1) (seq a b) rest trace = (trace', some (nodes, after))) :
    Reads s rest nodes after := by
  obtain ⟨seen, xs, ys, between, hfirst, hsecond, rfl⟩ := run_seq_eq_some h
  have hxs := ih a _ _ _ _ _ ha hrest hfirst
  exact hxs.trans (ih b _ _ _ _ _ hb (hxs.isNumbered hrest) hsecond)

theorem reads_many (ih : ReadsAt rules s depth) (ha : a.opensClasses) (hrest : rest.IsNumbered)
    (h : run rules (depth + 1) (many a) rest trace = (trace', some (nodes, after))) :
    Reads s rest nodes after := by
  rw [run] at h
  split at h
  · cases h
    exact .refl s rest
  · next seen xs between hfirst =>
      have hxs := ih a _ _ _ _ _ ha hrest hfirst
      split at h
      · cases h
        exact .refl s rest
      · split at h
        · cases h
        · next seen' ys last hmore =>
            cases h
            exact hxs.trans (ih (many a) _ _ _ _ _ ha (hxs.isNumbered hrest) hmore)

theorem reads_wrap {build : Extent → List Node → List Node} {result : Trace × Option Parsed}
    (hread : ∀ seen xs between, result = (seen, some (xs, between)) →
      Reads s rest.splitTrivia.2 (build (rest.splitTrivia.2.extentTo between) xs) between)
    (hsame : ∀ seen xs between, result = (seen, some (xs, between)) →
      rest.splitTrivia.2.index? = between.index? →
      Node.lines s (build (rest.extentTo between) xs) = [])
    (h : wrap build rest rest.splitTrivia.1 rest.splitTrivia.2 result =
      (trace', some (nodes, after))) : Reads s rest nodes after := by
  obtain ⟨seen, parsed⟩ := result
  cases parsed with
  | none => cases h
  | some parsed =>
      obtain ⟨xs, between⟩ := parsed
      dsimp only [wrap] at h
      split at h
      · next hindex =>
          cases h
          rw [← rest.index?_splitTrivia] at hindex
          refine (Reads.refl s rest).of_sublist ?_
          rw [hsame _ xs between rfl hindex]
          exact List.nil_sublist _
      · next hindex =>
          cases h
          obtain ⟨used, hused, hlines⟩ := hread _ _ _ rfl
          refine ⟨used, by rw [← hused, rest.bare_splitTrivia], ?_⟩
          rw [Node.lines_append, rest.lines_splitTrivia, List.nil_append]
          exact hlines

/-- A form that is put around nodes declares what they do. -/
theorem reads_wrap_of_sublist {build : Extent → List Node → List Node} (ih : ReadsAt rules s depth)
    (hbuild : ∀ extent xs, (Node.lines s (build extent xs)).Sublist (Node.lines s xs))
    (ha : a.opensClasses) (hrest : rest.IsNumbered)
    (h : wrap build rest rest.splitTrivia.1 rest.splitTrivia.2
      (run rules depth a rest.splitTrivia.2 trace) = (trace', some (nodes, after))) :
    Reads s rest nodes after := by
  have hbare := hrest.splitTrivia
  refine reads_wrap ?_ ?_ h
  · intro seen xs between hrun
    exact (ih a _ _ _ _ _ ha hbare hrun).of_sublist (hbuild _ xs)
  · intro seen xs between hrun hindex
    have hnil := (ih a _ _ _ _ _ ha hbare hrun).lines_eq_nil hbare hindex
    exact List.sublist_nil.mp (hnil ▸ hbuild _ xs)

/-- What is put together behind a keyword `class` does without the keyword. -/
theorem exists_of_run_class (ih : ∀ below < depth, ReadsAt rules s below) (ha : a.opensClasses)
    (hrest : rest.IsNumbered)
    (h : run rules depth (seq (term (.keyword "class")) a) rest trace =
      (trace', some (nodes, after))) :
    ∃ (token : Token) (used : List Token), token.isClass ∧ rest.bare = token :: used ++ after.bare ∧
      (∀ between, (rest.extentTo between).row = token.extent.row) ∧
      (Node.lines s nodes).Sublist (keywordLines used) := by
  match depth with
  | 0 => cases h
  | 1 =>
      obtain ⟨seen, xs, ys, between, hterm, -, -⟩ := run_seq_eq_some h
      cases hterm
  | below + 2 =>
      obtain ⟨seen, xs, ys, between, hterm, hrun, rfl⟩ := run_seq_eq_some h
      obtain ⟨token, tokens, htokens, haccepts, hbetween, hxs⟩ := reads_term (s := s) hterm
      have hbare : rest.bare = token.bare :: between.bare := by
        rw [Rest.bare, Rest.bare, htokens, hbetween, List.map_cons]
      have hnumbered : between.IsNumbered := by
        rw [Rest.IsNumbered, hbare, List.map_cons, List.nodup_cons] at hrest
        exact hrest.2
      obtain ⟨used, hused, hlines⟩ :=
        ih (below + 1) (Nat.lt_succ_self _) a _ _ _ _ _ ha hnumbered hrun
      refine ⟨token.bare, used, Token.isClass_of_accepts haccepts, ?_, ?_, ?_⟩
      · rw [hbare, hused, List.cons_append]
      · intro other
        rw [Rest.extentTo, htokens]
        dsimp only
        split
        · rfl
        · rfl
      · rw [Node.lines_append, hxs, List.nil_append]
        exact hlines

/-- A class statement is on the line of its keyword, which nothing inside it
reads again. -/
theorem reads_classNode (ih : ∀ below < depth, ReadsAt rules s below) (ha : a.opensClasses)
    (hrest : rest.IsNumbered)
    (h : wrap (fun extent xs => [.classDef extent xs]) rest rest.splitTrivia.1 rest.splitTrivia.2
      (run rules depth (seq (term (.keyword "class")) a) rest.splitTrivia.2 trace) =
        (trace', some (nodes, after))) : Reads s rest nodes after := by
  have hbare := hrest.splitTrivia
  refine reads_wrap ?_ ?_ h
  · intro seen xs between hrun
    obtain ⟨token, used, hclass, hused, hrow, hlines⟩ := exists_of_run_class ih ha hbare hrun
    refine ⟨token :: used, hused, (Node.lines_classDef_sublist s _ xs).trans ?_⟩
    rw [hrow, keywordLines, List.filter_cons_of_pos hclass, List.map_cons]
    exact hlines.cons_cons _
  · intro seen xs between hrun hindex
    obtain ⟨token, used, -, hused, -, -⟩ := exists_of_run_class ih ha hbare hrun
    cases eq_nil_of_index?_eq hbare hused hindex

/-- A run reads the tokens in front of it from top to bottom. -/
theorem readsAt (hrules : ∀ r, (rules r).opensClasses) (s : String) (depth : Nat) :
    ReadsAt rules s depth := by
  induction depth using Nat.strongRecOn with
  | ind depth ih =>
      intro g rest after trace trace' nodes hg hrest h
      cases depth with
      | zero => cases h
      | succ n =>
          have hn : ReadsAt rules s n := ih n (Nat.lt_succ_self n)
          cases g with
          | empty =>
              rw [run] at h
              cases h
              exact .refl s rest
          | term t =>
              obtain ⟨token, tokens, htokens, -, hafter, hlines⟩ := reads_term (s := s) h
              refine ⟨[token.bare], ?_, ?_⟩
              · rw [Rest.bare, Rest.bare, htokens, hafter, List.map_cons, List.singleton_append]
              · rw [hlines]
                exact List.nil_sublist _
          | rule r =>
              rw [run] at h
              exact hn _ _ _ _ _ _ (hrules r) hrest h
          | seq a b =>
              have hab := Bool.and_eq_true_iff.mp hg
              exact reads_seq hn hab.1 hab.2 hrest h
          | alt a b =>
              have hab := Bool.and_eq_true_iff.mp hg
              rw [run] at h
              split at h
              · next seen parsed hfirst =>
                  cases h
                  exact hn a _ _ _ _ _ hab.1 hrest hfirst
              · next seen hfirst => exact hn b _ _ _ _ _ hab.2 hrest h
          | many a => exact reads_many (a := a) hn hg hrest h
          | ahead a =>
              rw [run] at h
              split at h
              · cases h
              · cases h
                exact .refl s rest
          | notAhead a =>
              rw [run] at h
              split at h
              · cases h
                exact .refl s rest
              · cases h
          | node form a =>
              rw [run] at h
              refine reads_wrap_of_sublist (a := a) hn (fun extent xs => ?_) hg hrest h
              rw [Node.lines_branch]
          | join form a =>
              rw [run] at h
              refine reads_wrap_of_sublist (a := a) hn (fun extent xs => ?_) hg hrest h
              split
              · exact List.Sublist.refl _
              · rw [Node.lines_branch]
          | classNode a =>
              obtain ⟨hstart, ha⟩ := Bool.and_eq_true_iff.mp hg
              obtain ⟨b, rfl⟩ := eq_seq_of_startsClass hstart
              have hb : b.opensClasses := (Bool.and_eq_true_iff.mp ha).2
              rw [run] at h
              exact reads_classNode (fun below hbelow => ih below (by omega)) hb hrest h
          | field f a =>
              rw [run] at h
              split at h
              · cases h
              · next seen xs between hfirst =>
                  cases h
                  refine (hn a _ _ _ _ _ hg hrest hfirst).of_sublist ?_
                  rw [Node.lines_labelOf]
          | check isFine a =>
              rw [run] at h
              split at h
              · cases h
              · next seen xs between hfirst =>
                  split at h
                  · cases h
                    exact hn a _ _ _ _ _ hg hrest hfirst
                  · cases h
          | mark a =>
              rw [run] at h
              split at h
              · cases h
              · next seen xs between hfirst =>
                  cases h
                  exact hn a _ _ _ _ _ hg hrest hfirst

end Grammar

/-! ## Sources -/

theorem keywordLines_map_bare (ts : List Token) :
    keywordLines (ts.map Token.bare) = keywordLines ts := by
  rw [keywordLines, keywordLines, List.filter_map, List.map_map]
  rfl

/-- The trees of a source take the lines of their classes from its keywords. -/
theorem lines_sublist_of_treesOfFeeds {input : List Char} {ns : List Node}
    (h : treesOfFeeds input = .ok ns) (s : String) :
    (Node.lines s ns).Sublist (keywordLines (tokens input)) := by
  unfold treesOfFeeds at h
  dsimp only at h
  split at h
  · next trace nodes after hrun hbad =>
      cases h
      have hnumbered : Rest.IsNumbered { tokens := tokens input, stop := 0 } := by
        rw [Rest.IsNumbered, Rest.bare, List.map_map]
        exact nodup_index_tokens input
      have hrules := Grammar.opensClasses_definition .tolerant
      obtain ⟨used, hused, hlines⟩ := Grammar.readsAt hrules s _ _ _ _ _ _ _ rfl hnumbered hrun
      have hbare : (tokens input).map Token.bare = used ++ after.bare := hused
      rw [← keywordLines_map_bare, hbare, keywordLines_append]
      exact hlines.trans (List.sublist_append_left _ _)
  · cases h

mutual

theorem lines_move (s : String) (f : Nat → Nat) :
    ∀ n : Node, linesOf ((n.move f).classes s) = linesOf (n.classes s)
  | .branch form field extent children => by
    rw [Node.move, Node.classes, Node.classes]
    exact lines_moveOf s f children
  | .classDef extent children => by
    rw [Node.move, Node.classes, Node.classes, linesOf_singleton, linesOf_singleton,
      lines_bodyClasses_moveOf s f children]
    rfl

theorem lines_moveOf (s : String) (f : Nat → Nat) :
    ∀ ns : List Node, linesOf (classesOf s (moveOf f ns)) = linesOf (classesOf s ns)
  | [] => rfl
  | n :: rest => by
    rw [moveOf, classesOf, classesOf, linesOf_append, linesOf_append, lines_move s f n,
      lines_moveOf s f rest]

theorem lines_bodyClasses_moveOf (s : String) (f : Nat → Nat) :
    ∀ ns : List Node, linesOf (bodyClasses s (moveOf f ns)) = linesOf (bodyClasses s ns)
  | [] => rfl
  | n :: rest => by
    rw [moveOf, bodyClasses, bodyClasses, Node.field_move]
    split
    · exact lines_move s f n
    · exact lines_bodyClasses_moveOf s f rest

end

/-- In the forest that is declared by a parsed source, each class in front of
those inside it, the lines never decrease. -/
theorem pairwise_lines_of_treesOf {input : List Char} {ns : List Node}
    (h : treesOf input = .ok ns) (s : String) : (linesOf (classesOf s ns)).Pairwise (· ≤ ·) := by
  obtain ⟨trees, htrees, rfl⟩ : ∃ trees, treesOfFeeds (Text.dropReturns input) = .ok trees ∧
      moveOf (Text.rawOffset input) trees = ns := by
    rw [treesOf] at h
    cases hread : treesOfFeeds (Text.dropReturns input) with
    | error row? =>
        rw [hread] at h
        cases h
    | ok trees =>
        rw [hread] at h
        exact ⟨trees, rfl, Except.ok.inj h⟩
  rw [lines_moveOf]
  exact (pairwise_keywordLines_tokens _).sublist (lines_sublist_of_treesOfFeeds htrees s)

end ProtoSchema.Extension
