import ProtoSchema.Overrides
import ProtoSchema.Proofs.Outcome

/-!
# How line ends are spelled

A parser that takes returns finds the same trees in texts that differ in the
spelling of line ends, or refuses them on the same line; the offsets differ, and
each text is quoted at its own. So the spelling comes up only where a piece of
the source is quoted, as the text of a computed base; and there it can be taken
out again, if it was the only use of carriage returns.

Nothing asks for these texts but the declarations themselves. Overrides are made
from names and bare bases, so they come out the same.
-/

namespace ProtoSchema

/-! ## Carriage returns -/

namespace Text

theorem dropReturns_cons {c : Char} (h : c ≠ '\r') (rest : List Char) :
    dropReturns (c :: rest) = c :: dropReturns rest := by
  rw [dropReturns]
  intro _ hc
  exact absurd hc h

theorem dropReturns_of_notMem {text : List Char} (h : '\r' ∉ text) : dropReturns text = text := by
  induction text with
  | nil => rfl
  | cons c text ih =>
      obtain ⟨hc, htext⟩ := not_or.mp (List.mem_cons.not.mp h)
      rw [dropReturns_cons (Ne.symm hc), ih htext]

theorem dropReturns_addReturns {text : List Char} (h : '\r' ∉ text) :
    dropReturns (addReturns text) = text := by
  induction text with
  | nil => rfl
  | cons c text ih =>
      obtain ⟨hc, htext⟩ := not_or.mp (List.mem_cons.not.mp h)
      rw [addReturns] at ih
      rw [addReturns, List.flatMap_cons]
      split
      · next hfeed =>
          rw [hfeed]
          exact congrArg ('\n' :: ·) (ih htext)
      · rw [List.singleton_append, dropReturns_cons (Ne.symm hc), ih htext]

theorem withoutReturns_withReturns {s : String} (h : '\r' ∉ s.toList) :
    withoutReturns (withReturns s) = s := by
  rw [withoutReturns, withReturns, String.toList_ofList, dropReturns_addReturns h,
    String.ofList_toList]

/-! ### Offsets -/

theorem drop_rawOffset (text : List Char) (offset : Nat) :
    dropReturns (text.drop (rawOffset text offset)) = (dropReturns text).drop offset := by
  fun_induction rawOffset text offset with
  | case1 text => rfl
  | case2 offset => rfl
  | case3 rest offset ih => exact ih
  | case4 c rest offset hreturn ih =>
      rw [List.drop_succ_cons, dropReturns.eq_3, List.drop_succ_cons]
      · exact ih
      · exact hreturn

theorem take_rawOffset (text : List Char) (offset : Nat) :
    dropReturns (text.take (rawOffset text offset)) = (dropReturns text).take offset := by
  fun_induction rawOffset text offset with
  | case1 text => rfl
  | case2 offset => rfl
  | case3 rest offset ih => exact congrArg ('\n' :: ·) ih
  | case4 c rest offset hreturn ih =>
      rw [List.take_succ_cons, dropReturns.eq_3, dropReturns.eq_3, List.take_succ_cons, ih]
      · exact hreturn
      · -- A piece starts with a line feed only if the text does.
        intro rest' hc hpiece
        cases rest with
        | nil => cases List.take_nil.symm.trans hpiece
        | cons d rest =>
            cases hn : rawOffset (d :: rest) offset with
            | zero =>
                rw [hn] at hpiece
                cases hpiece
            | succ n =>
                rw [hn, List.take_succ_cons] at hpiece
                obtain ⟨rfl, -⟩ := List.cons.inj hpiece
                exact hreturn rest hc rfl

theorem rawOffset_nil (offset : Nat) : rawOffset [] offset = offset := by
  cases offset with
  | zero => rw [rawOffset]
  | succ offset => rw [rawOffset]

theorem rawOffset_zero (text : List Char) : rawOffset text 0 = 0 := by
  rw [rawOffset]

theorem rawOffset_sub (text : List Char) (start stop : Nat) :
    rawOffset (text.drop (rawOffset text start)) (stop - start) =
      rawOffset text stop - rawOffset text start := by
  fun_induction rawOffset text start generalizing stop with
  | case1 text => rfl
  | case2 start =>
      rw [List.drop_nil, rawOffset_nil, rawOffset_nil]
  | case3 rest start ih =>
      cases stop with
      | zero => rw [Nat.zero_sub, rawOffset_zero, rawOffset_zero, Nat.zero_sub]
      | succ stop =>
          rw [Nat.add_sub_add_right, rawOffset, Nat.add_sub_add_right]
          exact ih stop
  | case4 c rest start hreturn ih =>
      cases stop with
      | zero => rw [Nat.zero_sub, rawOffset_zero, rawOffset_zero, Nat.zero_sub]
      | succ stop =>
          rw [Nat.add_sub_add_right, rawOffset.eq_4, Nat.add_sub_add_right]
          · exact ih stop
          · exact hreturn

theorem rawOffset_of_notMem {text : List Char} (h : '\r' ∉ text) (offset : Nat) :
    rawOffset text offset = offset := by
  fun_induction rawOffset text offset with
  | case1 text => rfl
  | case2 offset => rfl
  | case3 rest offset ih => exact absurd List.mem_cons_self h
  | case4 c rest offset hreturn ih => rw [ih (fun hmem => h (List.mem_cons_of_mem c hmem))]

end Text

namespace Extension

open Text (dropReturns rawOffset withoutReturns)

/-- What stands at an offset and is quoted from there is, but for its carriage
returns, what the text without them quotes. -/
theorem withoutReturns_slice (text : String) (extent : Extent) :
    withoutReturns (slice text (extent.move (rawOffset text.toList))) =
      slice (withoutReturns text) extent := by
  rw [withoutReturns, withoutReturns, slice, slice, String.toList_ofList, String.toList_ofList]
  show String.ofList (dropReturns ((text.toList.drop (rawOffset text.toList extent.start)).take
    (rawOffset text.toList extent.stop - rawOffset text.toList extent.start))) = _
  rw [← Text.rawOffset_sub, Text.take_rawOffset, Text.drop_rawOffset]

/-! ## Declarations -/

/-- The base with the text of a computed one passed through `f`. -/
def Base.mapText (f : String → String) : Base → Base
  | .name base => .name base
  | .dynamic text => .dynamic (f text)

mutual

/-- The declaration with the texts of computed bases passed through `f`, also
inside it. -/
def ClassDeclaration.mapTexts (f : String → String) : ClassDeclaration → ClassDeclaration
  | ⟨name, bases, line, nested⟩ => ⟨name, bases.map (Base.mapText f), line, mapTextsOf f nested⟩

def mapTextsOf (f : String → String) : List ClassDeclaration → List ClassDeclaration
  | [] => []
  | d :: rest => d.mapTexts f :: mapTextsOf f rest

end

theorem mapTextsOf_append (f : String → String) (ds ds' : List ClassDeclaration) :
    mapTextsOf f (ds ++ ds') = mapTextsOf f ds ++ mapTextsOf f ds' := by
  induction ds with
  | nil => rfl
  | cons d ds ih => rw [List.cons_append, mapTextsOf, mapTextsOf, ih, List.cons_append]

/-! ### Trees at other offsets -/

theorem moveOf_eq_map (g : Nat → Nat) (ns : List Node) : moveOf g ns = ns.map (Node.move g) := by
  induction ns with
  | nil => rfl
  | cons n ns ih => rw [moveOf, ih, List.map_cons]

theorem find?_moveOf (g : Nat → Nat) (field : Field) (ns : List Node) :
    (moveOf g ns).find? (·.field = some field) =
      (ns.find? (·.field = some field)).map (Node.move g) := by
  rw [moveOf_eq_map, List.find?_map]
  simp only [Function.comp_def, Node.field_move]

theorem nameOf_moveOf (g : Nat → Nat) (ns : List Node) : nameOf (moveOf g ns) = nameOf ns := by
  rw [nameOf, nameOf, find?_moveOf, Option.map_map]
  simp only [Function.comp_def, Node.form_move]

theorem superclassesOf_moveOf (g : Nat → Nat) (ns : List Node) :
    superclassesOf (moveOf g ns) = moveOf g (superclassesOf ns) := by
  rw [superclassesOf, superclassesOf, find?_moveOf]
  cases ns.find? (·.field = some .superclasses) with
  | none => rfl
  | some n => exact n.children_move g

section

/-! What a source quotes of a tree is, passed through `f`, what another one quotes
of the tree that has its offsets passed through `g`. -/

variable {s s' : String} {f : String → String} {g : Nat → Nat}

/-- What one source quotes at the offsets passed through `g` is, passed through
`f`, what the other one quotes. -/
def QuotesAs (s' : String) (f : String → String) (g : Nat → Nat) (s : String) : Prop :=
  ∀ extent : Extent, f (slice s' (extent.move g)) = slice s extent

mutual

theorem mapText_base? (h : QuotesAs s' f g s) :
    ∀ n : Node, ((n.move g).base? s').map (Base.mapText f) = n.base? s
  | .branch form field extent children => by
    rw [Node.move]
    unfold Node.base?
    -- Parentheses are the one form that looks further in; the others quote or give nothing.
    split
    · rfl
    · exact mapText_firstBase? h children
    · rfl
    · rfl
    · rfl
    · exact congrArg (fun text => some (Base.dynamic text)) (h _)
  | .classDef extent children => by
    rw [Node.move, Node.base?, Node.base?]
    exact congrArg (fun text => some (Base.dynamic text)) (h _)

theorem mapText_firstBase? (h : QuotesAs s' f g s) :
    ∀ ns : List Node, (firstBase? s' (moveOf g ns)).map (Base.mapText f) = firstBase? s ns
  | [] => rfl
  | n :: rest => by
    rw [moveOf, firstBase?, firstBase?, Node.form_move]
    split
    · exact mapText_firstBase? h rest
    · exact mapText_base? h n

end

theorem mapText_bases (h : QuotesAs s' f g s) (ns : List Node) :
    ((moveOf g ns).filterMap (Node.base? s')).map (Base.mapText f) =
      ns.filterMap (Node.base? s) := by
  rw [moveOf_eq_map, List.filterMap_map, List.map_filterMap]
  exact congrArg (fun base? => ns.filterMap base?) (funext (mapText_base? h))

mutual

theorem mapTexts_classes (h : QuotesAs s' f g s) :
    ∀ n : Node, mapTextsOf f ((n.move g).classes s') = n.classes s
  | .branch form field extent children => by
    rw [Node.move, Node.classes, Node.classes]
    exact mapTexts_classesOf h children
  | .classDef extent children => by
    rw [Node.move, Node.classes, Node.classes, mapTextsOf, ClassDeclaration.mapTexts, mapTextsOf,
      nameOf_moveOf, superclassesOf_moveOf, mapText_bases h, mapTexts_bodyClasses h children]
    rfl

theorem mapTexts_classesOf (h : QuotesAs s' f g s) :
    ∀ ns : List Node, mapTextsOf f (classesOf s' (moveOf g ns)) = classesOf s ns
  | [] => rfl
  | n :: rest => by
    rw [moveOf, classesOf, classesOf, mapTextsOf_append, mapTexts_classes h n,
      mapTexts_classesOf h rest]

theorem mapTexts_bodyClasses (h : QuotesAs s' f g s) :
    ∀ ns : List Node, mapTextsOf f (bodyClasses s' (moveOf g ns)) = bodyClasses s ns
  | [] => rfl
  | n :: rest => by
    rw [moveOf, bodyClasses, bodyClasses, Node.field_move]
    split
    · exact mapTexts_classes h n
    · exact mapTexts_bodyClasses h rest

end

end

/-! ## Parsers -/

/-- A parser that takes returns finds the same classes in a text without
carriage returns and in any text that only spells its line ends in another way,
or refuses both on the same line. -/
theorem parseWith_of_withoutReturns {parser : Parser} (hparser : parser.TakesReturns)
    {text other : String} (hclean : '\r' ∉ text.toList) (h : withoutReturns other = text) :
    (parseWith parser other).map (mapTextsOf withoutReturns) = parseWith parser text := by
  subst h
  have hquotes : QuotesAs other withoutReturns (rawOffset other.toList) (withoutReturns other) :=
    withoutReturns_slice other
  rw [withoutReturns, String.toList_ofList] at hclean
  rw [parseWith, parseWith, hparser _ hclean, withoutReturns, String.toList_ofList]
  cases parser (dropReturns other.toList) with
  | error row? => rfl
  | ok nodes => exact congrArg Except.ok (mapTexts_classesOf hquotes nodes)

mutual

theorem move_id : ∀ n : Node, n.move id = n
  | .branch form field extent children => by
    rw [Node.move, moveOf_id children]
    rfl
  | .classDef extent children => by
    rw [Node.move, moveOf_id children]
    rfl

theorem moveOf_id : ∀ ns : List Node, moveOf id ns = ns
  | [] => rfl
  | n :: rest => by rw [moveOf, move_id n, moveOf_id rest]

end

theorem takesReturns_treesOf : Parser.TakesReturns treesOf := by
  intro text hclean
  have hraw : rawOffset (dropReturns text) = id := funext (Text.rawOffset_of_notMem hclean)
  rw [treesOf, treesOf, Text.dropReturns_of_notMem hclean, hraw]
  cases treesOfFeeds (dropReturns text) with
  | error row? => rfl
  | ok nodes =>
      show Except.ok (moveOf (rawOffset text) nodes) =
        Except.ok (moveOf (rawOffset text) (moveOf id nodes))
      rw [moveOf_id]

/-! ## Overrides -/

theorem simpleBases_mapTexts (f : String → String) (d : ClassDeclaration) :
    (d.mapTexts f).simpleBases = d.simpleBases := by
  obtain ⟨name, bases, line, nested⟩ := d
  rw [ClassDeclaration.mapTexts, ClassDeclaration.simpleBases, ClassDeclaration.simpleBases,
    List.filterMap_map]
  refine congrArg (fun g => bases.filterMap g) (funext fun base => ?_)
  cases base with
  | name base => rfl
  | dynamic text => rfl

mutual

theorem extensions_mapTexts (f : String → String) :
    ∀ d : ClassDeclaration, (d.mapTexts f).extensions = d.extensions
  | ⟨name, bases, line, nested⟩ => by
    have hbases := simpleBases_mapTexts f ⟨name, bases, line, nested⟩
    rw [ClassDeclaration.mapTexts] at hbases ⊢
    rw [ClassDeclaration.extensions, ClassDeclaration.extensions, hbases,
      extensionsOf_mapTextsOf f nested]

theorem extensionsOf_mapTextsOf (f : String → String) :
    ∀ ds : List ClassDeclaration, extensionsOf (mapTextsOf f ds) = extensionsOf ds
  | [] => rfl
  | d :: rest => by
    rw [mapTextsOf, extensionsOf, extensionsOf, extensions_mapTexts f d,
      extensionsOf_mapTextsOf f rest]

end

end Extension

namespace Overrides

open Extension (mapTextsOf)
open Text (withReturns withoutReturns)

theorem declarations_of_withoutReturns {text other : String} (hclean : '\r' ∉ text.toList)
    (h : withoutReturns other = text) (file : String) :
    (declarations other file).map (mapTextsOf withoutReturns) = declarations text file := by
  have hparse : (Extension.parse other).map (mapTextsOf withoutReturns) = Extension.parse text :=
    Extension.parseWith_of_withoutReturns Extension.takesReturns_treesOf hclean h
  rw [declarations, declarations, ← hparse]
  cases Extension.parse other with
  | error line => rfl
  | ok ds => rfl

theorem ofDeclarations_mapTextsOf (f : String → String) (file module : String)
    (ds : List Extension.ClassDeclaration) :
    ofDeclarations file module (mapTextsOf f ds) = ofDeclarations file module ds := by
  rw [ofDeclarations, ofDeclarations, Extension.extensionsOf_mapTextsOf]

theorem ofSource_of_withoutReturns {text other : String} (hclean : '\r' ∉ text.toList)
    (h : withoutReturns other = text) (file module : String) :
    ofSource other file module = ofSource text file module := by
  rw [ofSource, ofSource, ← declarations_of_withoutReturns hclean h file, bind_map]
  simp only [ofDeclarations_mapTextsOf]

/-- A source without carriage returns and the same source with one in front of
every line feed are both refused, on the same line, or have the same classes in
the same places with the same bases, once the carriage returns are taken out of
the texts of computed ones. They give the same overrides or the same error. -/
theorem declarations_withReturns {text : String} (h : '\r' ∉ text.toList) (file module : String) :
    ((∃ line, declarations text file = .error (.extensionSyntax file line) ∧
        declarations (withReturns text) file = .error (.extensionSyntax file line)) ∨
      ∃ ds ds', declarations text file = .ok ds ∧ declarations (withReturns text) file = .ok ds' ∧
        mapTextsOf withoutReturns ds' = ds) ∧
    ofSource (withReturns text) file module = ofSource text file module := by
  have hother := Text.withoutReturns_withReturns h
  refine ⟨?_, ofSource_of_withoutReturns h hother file module⟩
  rw [← declarations_of_withoutReturns h hother file, declarations]
  cases Extension.parse (withReturns text) with
  | error line => exact .inl ⟨line, rfl, rfl⟩
  | ok ds => exact .inr ⟨_, ds, rfl, rfl, rfl⟩

end Overrides

/-! ## A lamp

Its header is spread over three lines, once by a backslash and once inside
brackets, so that two of its bases have a line end in their texts. -/

namespace Lamp

open Extension (mapTextsOf)
open Overrides (declarations ofSource)
open Text (withReturns withoutReturns)

def source : String :=
  "class Lamp(\\\n  Bulb, lib.Shade[\n  int]):\n  pass\n"

def overrides : Overrides where
  module := "ext"
  entries := [("Bulb", "Lamp")]

theorem declarations_withReturns_lamp :
    '\r' ∉ source.toList ∧
    (declarations (withReturns source) "ext.py").map (·.map (·.bases)) =
      .ok [[.dynamic "\\\r\n", .name "Bulb", .dynamic "lib.Shade[\r\n  int]"]] ∧
    (∃ ds ds', declarations source "ext.py" = .ok ds ∧
      declarations (withReturns source) "ext.py" = .ok ds' ∧ mapTextsOf withoutReturns ds' = ds) ∧
    ofSource source "ext.py" "ext" = .ok overrides ∧
    ofSource (withReturns source) "ext.py" "ext" = .ok overrides := by
  have hclean : '\r' ∉ source.toList := by decide +kernel
  have hreturns : (declarations (withReturns source) "ext.py").map (·.map (·.bases)) =
      .ok [[.dynamic "\\\r\n", .name "Bulb", .dynamic "lib.Shade[\r\n  int]"]] := by
    decide +kernel
  have ho : ofSource source "ext.py" "ext" = .ok overrides := by decide +kernel
  obtain ⟨hforest, hsame⟩ := Overrides.declarations_withReturns hclean "ext.py" "ext"
  refine ⟨hclean, hreturns, ?_, ho, hsame.trans ho⟩
  rcases hforest with ⟨line, herror, -⟩ | hforest
  · rw [ofSource, herror] at ho
    cases ho
  · exact hforest

end Lamp

end ProtoSchema
