import ProtoSchema.Proofs.FirstFailure
import ProtoSchema.Proofs.ParameterStrings

/-!
# The last entry of a key wins

A parameter string is a list of entries, and it is read in three phases: every
piece is cut at its first equals sign, the file of the first `config` entry is
read, and the entries are applied in their order. Each phase has its own error,
and the first phase that fails decides.

If none fails, the order of the entries has little left to say. An entry sets
one setting, which its key names, and forgets what an earlier entry of the same
key has set. So a setting has the value of the last entry of its key, or else
the value from the file, or else the one it had. `overlay` says this of all
settings at once. It looks at the entries of one key at a time, so entries of
different keys may change places.
-/

namespace ProtoSchema

namespace Config

open ProtoSchema.Text (trim)

/-! ## Entries -/

/-- The text has the entry's key and value around its first equals sign. -/
def Parameter.Spells (piece : String) (p : Parameter) : Prop :=
  ∃ key value, piece = key ++ "=" ++ value ∧ '=' ∉ key.toList ∧
    p = { key := trim key, value := trim value }

def knownKeys : List String :=
  ["config", "extensions", "queries", "mutations", "output", "validate", "proto_module",
   "handlers_module", "extensions_module", "scalars_module", "parse_dict_module"]

/-- The key is known, and a flag is spelled as one. -/
def Parameter.IsSetting (p : Parameter) : Prop :=
  p.key ∈ knownKeys ∧ (p.key = "validate" → p.value = "true" ∨ p.value = "false")

instance (p : Parameter) : Decidable p.IsSetting :=
  inferInstanceAs (Decidable (_ ∧ _))

/-- What is said of an entry that is no setting. -/
def Parameter.refusal (p : Parameter) : Error :=
  .parameter (if p.key = "validate" then .badFlag p.value else .unknownKey p.key)

/-- The value of the last entry with a key. -/
def lastValue? (ps : List Parameter) (key : String) : Option String :=
  (ps.filter (·.key = key)).getLast?.map (·.value)

/-- The configuration with each setting as the last entry of its key has it. -/
def overlay (c : Config) (ps : List Parameter) : Config where
  extensions := (lastValue? ps "extensions").or c.extensions
  queries := ((lastValue? ps "queries").map (trimmedPieces ';')).getD c.queries
  mutations := ((lastValue? ps "mutations").map (trimmedPieces ';')).getD c.mutations
  modules :=
    { proto := (lastValue? ps "proto_module").getD c.modules.proto
      handlers := (lastValue? ps "handlers_module").getD c.modules.handlers
      extensions := (lastValue? ps "extensions_module").getD c.modules.extensions
      scalars := (lastValue? ps "scalars_module").getD c.modules.scalars
      parseDict := (lastValue? ps "parse_dict_module").getD c.modules.parseDict }
  validate := ((lastValue? ps "validate").map (· == "true")).getD c.validate
  output := (lastValue? ps "output").or c.output

theorem lastValue?_append (ps qs : List Parameter) (key : String) :
    lastValue? (ps ++ qs) key = (lastValue? qs key).or (lastValue? ps key) := by
  rw [lastValue?, List.filter_append, List.getLast?_append, Option.map_or]
  rfl

theorem overlay_append (c : Config) (ps qs : List Parameter) :
    c.overlay (ps ++ qs) = (c.overlay ps).overlay qs := by
  simp only [overlay, lastValue?_append, Option.map_or, Option.getD_or, Option.or_assoc]

/-! ## Applying entries -/

theorem apply_of_isSetting {p : Parameter} (h : p.IsSetting) (c : Config) :
    apply c p = .ok (c.overlay [p]) := by
  obtain ⟨key, value⟩ := p
  obtain ⟨hkey, hflag⟩ := h
  by_cases hvalidate : key = "validate"
  · subst hvalidate
    obtain rfl | rfl := hflag rfl
    · rfl
    · rfl
  · simp only [knownKeys, List.mem_cons, hvalidate, List.not_mem_nil, false_or, or_false] at hkey
    rcases hkey with rfl | rfl | rfl | rfl | rfl | rfl | rfl | rfl | rfl | rfl <;> rfl

theorem apply_of_not_isSetting {p : Parameter} (h : ¬ p.IsSetting) (c : Config) :
    apply c p = .error p.refusal := by
  obtain ⟨key, value⟩ := p
  by_cases hvalidate : key = "validate"
  · subst hvalidate
    have hknown : "validate" ∈ knownKeys := by decide
    have hflag : ¬ (value = "true" ∨ value = "false") := fun hv => h ⟨hknown, fun _ => hv⟩
    rw [not_or] at hflag
    have hnone : flagOfText? value = none := by
      rw [flagOfText?, if_neg hflag.1, if_neg hflag.2]
    simp only [apply, hnone]
    rfl
  · have hkey : key ∉ knownKeys := fun hk => h ⟨hk, fun hv => absurd hv hvalidate⟩
    simp only [apply, Parameter.refusal, hvalidate, if_false]
    split
    case h_12 => rfl
    all_goals exact absurd (by decide) hkey

theorem error?_apply (c : Config) (p : Parameter) :
    error? (apply c p) = if p.IsSetting then none else some p.refusal := by
  split
  · next h => rw [apply_of_isSetting h, error?]
  · next h => rw [apply_of_not_isSetting h, error?]

/-- Entries that are all settings are applied as one. -/
theorem foldlM_apply {ps : List Parameter} (h : ∀ p ∈ ps, p.IsSetting) (c : Config) :
    ps.foldlM apply c = .ok (c.overlay ps) := by
  induction ps generalizing c with
  | nil => rfl
  | cons p ps ih =>
      rw [List.foldlM_cons, apply_of_isSetting (h p List.mem_cons_self)]
      refine (ih (fun q hq => h q (List.mem_cons_of_mem p hq)) (c.overlay [p])).trans ?_
      rw [← overlay_append, List.singleton_append]

theorem foldlM_apply_eq_error {ps : List Parameter} {c : Config} {e : Error} :
    ps.foldlM apply c = .error e ↔
      ∃ before p after, ps = before ++ p :: after ∧ (∀ q ∈ before, q.IsSetting) ∧
        ¬ p.IsSetting ∧ e = p.refusal := by
  rw [← error?_eq_some, error?_foldlM error?_apply, List.findSome?_eq_some_iff]
  constructor
  · rintro ⟨before, p, after, hsplit, hp, hbefore⟩
    refine ⟨before, p, after, hsplit, fun q hq => ?_, ?_⟩
    · by_contra hq'
      simpa [hq'] using hbefore q hq
    · by_cases hset : p.IsSetting
      · simp [hset] at hp
      · rw [if_neg hset] at hp
        exact ⟨hset, (Option.some.inj hp).symm⟩
  · rintro ⟨before, p, after, hsplit, hbefore, hp, rfl⟩
    exact ⟨before, p, after, hsplit, if_neg hp, fun q hq => if_pos (hbefore q hq)⟩

theorem foldlM_apply_eq_ok {ps : List Parameter} {c c' : Config} :
    ps.foldlM apply c = .ok c' ↔ (∀ p ∈ ps, p.IsSetting) ∧ c' = c.overlay ps := by
  constructor
  · intro h
    have hset : ∀ p ∈ ps, p.IsSetting := by
      intro p hp
      have hnone := error?_eq_none.mpr ⟨c', h⟩
      rw [error?_foldlM error?_apply, List.findSome?_eq_none_iff] at hnone
      by_contra hset
      simpa [hset] using hnone p hp
    exact ⟨hset, Except.ok.inj (h.symm.trans (foldlM_apply hset c))⟩
  · rintro ⟨hset, rfl⟩
    exact foldlM_apply hset c

/-! ## Pieces -/

theorem spells_iff {piece : String} {p : Parameter} :
    p.Spells piece ↔ ∃ key value, Text.cutFirst? '=' piece = some (key, value) ∧
      p = { key := trim key, value := trim value } := by
  have hequals : "=".toList = ['='] := by decide
  simp only [Parameter.Spells, Text.cutFirst?_eq_some hequals, and_assoc]

theorem ofPiece_eq_ok {piece : String} {p : Parameter} :
    Parameter.ofPiece piece = .ok p ↔ p.Spells piece := by
  rw [spells_iff, Parameter.ofPiece]
  cases Text.cutFirst? '=' piece with
  | none => simp
  | some parts =>
      obtain ⟨key, value⟩ := parts
      simp [eq_comm]

theorem ofPiece_eq_error {piece : String} {e : Error} :
    Parameter.ofPiece piece = .error e ↔
      '=' ∉ piece.toList ∧ e = .parameter (.noValue piece) := by
  rw [Parameter.ofPiece, ← Text.cutFirst?_eq_none]
  cases Text.cutFirst? '=' piece with
  | none => simp [eq_comm]
  | some parts => simp

theorem exists_spells_iff {piece : String} :
    (∃ p : Parameter, p.Spells piece) ↔ '=' ∈ piece.toList := by
  simp only [← ofPiece_eq_ok]
  cases h : Parameter.ofPiece piece with
  | error e => simpa using (ofPiece_eq_error.mp h).1
  | ok p =>
      refine ⟨fun _ => ?_, fun _ => ⟨p, rfl⟩⟩
      by_contra hnone
      rw [ofPiece_eq_error.mpr ⟨hnone, rfl⟩] at h
      cases h

theorem mapM_ofPiece_eq_error {pieces : List String} {e : Error} :
    pieces.mapM Parameter.ofPiece = .error e ↔
      ∃ before piece after, pieces = before ++ piece :: after ∧
        (∀ q ∈ before, '=' ∈ q.toList) ∧ '=' ∉ piece.toList ∧
        e = .parameter (.noValue piece) := by
  have hgood : ∀ q, error? (Parameter.ofPiece q) = none ↔ '=' ∈ q.toList := by
    intro q
    rw [error?_eq_none, ← exists_spells_iff]
    simp only [ofPiece_eq_ok]
  rw [← error?_eq_some, error?_mapM, List.findSome?_eq_some_iff]
  simp only [hgood, error?_eq_some, ofPiece_eq_error]
  constructor
  · rintro ⟨before, piece, after, hsplit, ⟨hpiece, he⟩, hbefore⟩
    exact ⟨before, piece, after, hsplit, hbefore, hpiece, he⟩
  · rintro ⟨before, piece, after, hsplit, hbefore, hpiece, he⟩
    exact ⟨before, piece, after, hsplit, ⟨hpiece, he⟩, hbefore⟩

/-- What the pieces spell, if each of them has an equals sign. -/
theorem mapM_ofPiece_eq_ok {pieces : List String} {ps : List Parameter} :
    pieces.mapM Parameter.ofPiece = .ok ps ↔ List.Forall₂ Parameter.Spells pieces ps := by
  rw [mapM_eq_ok]
  simp only [ofPiece_eq_ok]

/-! ## The configuration file -/

/-- The first `config` entry has this value. -/
def FirstConfig (ps : List Parameter) (path : String) : Prop :=
  ∃ before p after, ps = before ++ p :: after ∧ (∀ q ∈ before, q.key ≠ "config") ∧
    p.key = "config" ∧ p.value = path

/-- Where entries start from: the file of the first `config` entry, or else
what there is. -/
inductive StartsFrom (files : FileTree) (base : Config) (ps : List Parameter) : Config → Prop
  | base (hnone : ∀ p ∈ ps, p.key ≠ "config") : StartsFrom files base ps base
  | file {path : String} {start : Config} (hfirst : FirstConfig ps path)
      (hfile : ofFile files path = .ok start) : StartsFrom files base ps start

theorem configFile?_eq_some {ps : List Parameter} {path : String} :
    configFile? ps = some path ↔ FirstConfig ps path := by
  simp only [configFile?, Option.map_eq_some_iff, List.find?_eq_some_iff_append, FirstConfig,
    Bool.not_eq_true', decide_eq_false_iff_not, decide_eq_true_eq]
  constructor
  · rintro ⟨p, ⟨hkey, before, after, hsplit, hbefore⟩, hvalue⟩
    exact ⟨before, p, after, hsplit, hbefore, hkey, hvalue⟩
  · rintro ⟨before, p, after, hsplit, hbefore, hkey, hvalue⟩
    exact ⟨p, ⟨hkey, before, after, hsplit, hbefore⟩, hvalue⟩

theorem configFile?_eq_none {ps : List Parameter} :
    configFile? ps = none ↔ ∀ p ∈ ps, p.key ≠ "config" := by
  simp [configFile?]

theorem startFrom_eq_ok {files : FileTree} {base start : Config} {ps : List Parameter} :
    startFrom files base ps = .ok start ↔ StartsFrom files base ps start := by
  rw [startFrom]
  constructor
  · intro h
    split at h
    · next path hpath => exact .file (configFile?_eq_some.mp hpath) h
    · next hnone =>
        cases h
        exact .base (configFile?_eq_none.mp hnone)
  · intro h
    cases h with
    | base hnone => rw [configFile?_eq_none.mpr hnone]
    | file hfirst hfile =>
        rw [configFile?_eq_some.mpr hfirst]
        exact hfile

theorem startFrom_eq_error {files : FileTree} {base : Config} {ps : List Parameter} {e : Error} :
    startFrom files base ps = .error e ↔
      ∃ path, FirstConfig ps path ∧ ofFile files path = .error e := by
  simp only [startFrom, ← configFile?_eq_some]
  cases configFile? ps with
  | none => simp
  | some path => simp

/-! ## Parameter strings -/

/-- Why the pieces of a parameter string are refused: the first of them without
an equals sign, else the configuration file, else the first entry that is no
setting. -/
inductive Refused (files : FileTree) (pieces : List String) : Error → Prop
  | noValue {before after : List String} {piece : String}
      (hsplit : pieces = before ++ piece :: after) (hbefore : ∀ q ∈ before, '=' ∈ q.toList)
      (hpiece : '=' ∉ piece.toList) : Refused files pieces (.parameter (.noValue piece))
  | file {ps : List Parameter} {path : String} {e : Error}
      (hps : List.Forall₂ Parameter.Spells pieces ps) (hfirst : FirstConfig ps path)
      (hfile : ofFile files path = .error e) : Refused files pieces e
  | setting {ps before after : List Parameter} {p : Parameter}
      (hps : List.Forall₂ Parameter.Spells pieces ps)
      (hfile : ∀ path, FirstConfig ps path → ∃ start, ofFile files path = .ok start)
      (hsplit : ps = before ++ p :: after) (hbefore : ∀ q ∈ before, q.IsSetting)
      (hp : ¬ p.IsSetting) : Refused files pieces p.refusal

theorem withParameters_eq_ok {files : FileTree} {base c : Config} {text : String} :
    withParameters files base (some text) = .ok c ↔
      ∃ ps start, List.Forall₂ Parameter.Spells (trimmedPieces ',' text) ps ∧
        (∀ p ∈ ps, p.IsSetting) ∧ StartsFrom files base ps start ∧ c = start.overlay ps := by
  simp only [withParameters, bind_eq_ok, parameters, mapM_ofPiece_eq_ok, startFrom_eq_ok,
    foldlM_apply_eq_ok]
  constructor
  · rintro ⟨ps, hps, start, hstart, hset, hc⟩
    exact ⟨ps, start, hps, hset, hstart, hc⟩
  · rintro ⟨ps, start, hps, hset, hstart, hc⟩
    exact ⟨ps, hps, start, hstart, hset, hc⟩

theorem withParameters_eq_error {files : FileTree} {base : Config} {text : String} {e : Error} :
    withParameters files base (some text) = .error e ↔
      Refused files (trimmedPieces ',' text) e := by
  simp only [withParameters, bind_eq_error, parameters, mapM_ofPiece_eq_ok,
    mapM_ofPiece_eq_error, startFrom_eq_error, foldlM_apply_eq_error]
  constructor
  · rintro (⟨before, piece, after, hsplit, hbefore, hpiece, rfl⟩ | ⟨ps, hps, hrest⟩)
    · exact .noValue hsplit hbefore hpiece
    rcases hrest with ⟨path, hfirst, hfile⟩ | ⟨start, hstart, hbad⟩
    · exact .file hps hfirst hfile
    · obtain ⟨before, p, after, hsplit, hbefore, hp, rfl⟩ := hbad
      refine .setting hps (fun path hfirst => ⟨start, ?_⟩) hsplit hbefore hp
      rw [startFrom, configFile?_eq_some.mpr hfirst] at hstart
      exact hstart
  · intro h
    cases h with
    | noValue hsplit hbefore hpiece => exact .inl ⟨_, _, _, hsplit, hbefore, hpiece, rfl⟩
    | file hps hfirst hfile => exact .inr ⟨_, hps, .inl ⟨_, hfirst, hfile⟩⟩
    | @setting ps before after p hps hfile hsplit hbefore hp =>
        refine .inr ⟨ps, hps, .inr ?_⟩
        have hstart : ∃ start, startFrom files base ps = .ok start := by
          rw [startFrom]
          split
          · next path hpath => exact hfile path (configFile?_eq_some.mp hpath)
          · exact ⟨base, rfl⟩
        obtain ⟨start, hstart⟩ := hstart
        exact ⟨start, hstart, before, p, after, hsplit, hbefore, hp, rfl⟩

/-! ## The order of entries -/

/-- The key that a piece spells. -/
def pieceKey? (piece : String) : Option String :=
  (Text.cutFirst? '=' piece).map fun parts => trim parts.1

/-- The same pieces in an order that keeps those of one key as they were. -/
structure Shuffled (pieces pieces' : List String) : Prop where
  perm : pieces.Perm pieces'
  order : ∀ key, pieces.filter (pieceKey? · = some key) = pieces'.filter (pieceKey? · = some key)

theorem Shuffled.symm {pieces pieces' : List String} (h : Shuffled pieces pieces') :
    Shuffled pieces' pieces where
  perm := h.perm.symm
  order key := (h.order key).symm

theorem pieceKey?_of_spells {piece : String} {p : Parameter} (h : p.Spells piece) :
    pieceKey? piece = some p.key := by
  obtain ⟨key, value, hcut, rfl⟩ := spells_iff.mp h
  rw [pieceKey?, hcut]
  rfl

/-- The entries of one key are spelled by the pieces of that key. -/
theorem spells_filter {pieces : List String} {ps : List Parameter}
    (h : List.Forall₂ Parameter.Spells pieces ps) (key : String) :
    List.Forall₂ Parameter.Spells (pieces.filter (pieceKey? · = some key))
      (ps.filter (·.key = key)) := by
  induction h with
  | nil => exact .nil
  | @cons piece p pieces ps hp hps ih =>
      have hkey := pieceKey?_of_spells hp
      by_cases hpkey : p.key = key
      · rw [List.filter_cons_of_pos (by simp [hkey, hpkey]),
          List.filter_cons_of_pos (by simp [hpkey])]
        exact .cons hp ih
      · rw [List.filter_cons_of_neg (by simp [hkey, hpkey]),
          List.filter_cons_of_neg (by simp [hpkey])]
        exact ih

theorem exists_entries {pieces : List String} (h : ∀ piece ∈ pieces, '=' ∈ piece.toList) :
    ∃ ps, List.Forall₂ Parameter.Spells pieces ps := by
  induction pieces with
  | nil => exact ⟨[], .nil⟩
  | cons piece pieces ih =>
      obtain ⟨p, hp⟩ := exists_spells_iff.mpr (h piece List.mem_cons_self)
      obtain ⟨ps, hps⟩ := ih fun q hq => h q (List.mem_cons_of_mem piece hq)
      exact ⟨p :: ps, .cons hp hps⟩

theorem equals_mem_of_spells {pieces : List String} {ps : List Parameter}
    (h : List.Forall₂ Parameter.Spells pieces ps) : ∀ piece ∈ pieces, '=' ∈ piece.toList := by
  induction h with
  | nil => exact fun _ hmem => absurd hmem List.not_mem_nil
  | cons hp _ ih => exact List.forall_mem_cons.mpr ⟨exists_spells_iff.mp ⟨_, hp⟩, ih⟩

/-- Shuffled pieces spell entries that agree key by key. -/
theorem Shuffled.entries {pieces pieces' : List String} (h : Shuffled pieces pieces')
    {ps : List Parameter} (hps : List.Forall₂ Parameter.Spells pieces ps) :
    ∃ ps', List.Forall₂ Parameter.Spells pieces' ps' ∧
      ∀ key, ps'.filter (·.key = key) = ps.filter (·.key = key) := by
  have hequals : ∀ piece ∈ pieces', '=' ∈ piece.toList :=
    fun piece hmem => equals_mem_of_spells hps piece (h.perm.mem_iff.mpr hmem)
  obtain ⟨ps', hps'⟩ := exists_entries hequals
  refine ⟨ps', hps', fun key => ?_⟩
  -- Both are what the same pieces spell, and a piece spells one entry.
  have hread := mapM_ofPiece_eq_ok.mpr (spells_filter hps key)
  have hread' := mapM_ofPiece_eq_ok.mpr (spells_filter hps' key)
  rw [← h.order key] at hread'
  exact Except.ok.inj (hread'.symm.trans hread)

section Agreement

variable {ps ps' : List Parameter}
  (h : ∀ key, ps'.filter (·.key = key) = ps.filter (·.key = key))

include h

theorem mem_of_agree {p : Parameter} (hp : p ∈ ps') : p ∈ ps := by
  have hmem : p ∈ ps'.filter (·.key = p.key) := List.mem_filter.mpr ⟨hp, by simp⟩
  rw [h p.key] at hmem
  exact (List.mem_filter.mp hmem).1

theorem startFrom_of_agree (files : FileTree) (base : Config) :
    startFrom files base ps' = startFrom files base ps := by
  rw [startFrom, startFrom, configFile?, configFile?, ← List.head?_filter, ← List.head?_filter,
    h "config"]

theorem overlay_of_agree (c : Config) : c.overlay ps' = c.overlay ps := by
  simp only [overlay, lastValue?, h]

end Agreement

theorem Shuffled.withParameters {files : FileTree} {base c : Config} {text text' : String}
    (h : Shuffled (trimmedPieces ',' text) (trimmedPieces ',' text'))
    (hc : withParameters files base (some text) = .ok c) :
    Config.withParameters files base (some text') = .ok c := by
  obtain ⟨ps, start, hps, hset, hstart, rfl⟩ := withParameters_eq_ok.mp hc
  obtain ⟨ps', hps', hagree⟩ := h.entries hps
  refine withParameters_eq_ok.mpr ⟨ps', start, hps', fun p hp => hset p (mem_of_agree hagree hp),
    ?_, (overlay_of_agree hagree start).symm⟩
  rw [← startFrom_eq_ok] at hstart ⊢
  rw [startFrom_of_agree hagree]
  exact hstart

/-- A parameter string is accepted exactly if every piece is an entry, every
entry is a setting and the file of the first `config` entry can be read. Each
setting is then that of the last entry of its key, or else that of the file, or
else that of the base. Otherwise the first fault is the error, pieces before the
file before settings. Entries of different keys may stand in any order. -/
theorem withParameters_last_wins (files : FileTree) (base : Config) (text : String) :
    (∀ c, withParameters files base (some text) = .ok c ↔
      ∃ ps start, List.Forall₂ Parameter.Spells (trimmedPieces ',' text) ps ∧
        (∀ p ∈ ps, p.IsSetting) ∧ StartsFrom files base ps start ∧ c = start.overlay ps) ∧
    (∀ e, withParameters files base (some text) = .error e ↔
      Refused files (trimmedPieces ',' text) e) ∧
    ∀ text', Shuffled (trimmedPieces ',' text) (trimmedPieces ',' text') →
      ∀ c, withParameters files base (some text') = .ok c ↔
        withParameters files base (some text) = .ok c := by
  refine ⟨fun c => withParameters_eq_ok, fun e => withParameters_eq_error, fun text' h c => ?_⟩
  exact ⟨h.symm.withParameters, h.withParameters⟩

end Config

/-! A parameter string that gives one setting twice, and the same string with
its configuration file moved to the end. -/

namespace Sedge

open ProtoSchema.Config

def text : String := "config=conf, output = a.py ,queries=sedge.Bank.Cut;,output=b.py"

def moved : String := "output = a.py,queries=sedge.Bank.Cut;,,output=b.py,config=conf"

def rest : List String := ["output = a.py", "queries=sedge.Bank.Cut;", "output=b.py"]

def files : FileTree :=
  { entries :=
      [(["conf"], .file (Wire.writeText "\x7b\"output\": \"c.py\", \"validate\": false\x7d"))] }

def config : Config :=
  { queries := ["sedge.Bank.Cut"], validate := false, output := some "b.py" }

theorem shuffled : Shuffled ("config=conf" :: rest) (rest ++ ["config=conf"]) where
  perm := (List.perm_append_singleton "config=conf" rest).symm
  order key := by
    by_cases hkey : key = "config"
    · subst hkey
      decide
    · have hname : pieceKey? "config=conf" = some "config" := by decide
      have hfirst : pieceKey? "config=conf" ≠ some key := by
        rw [hname]
        exact fun h => hkey (Option.some.inj h).symm
      simp [hfirst]

theorem withParameters_last_wins_moved :
    Shuffled (trimmedPieces ',' text) (trimmedPieces ',' moved) ∧
    withParameters files {} (some text) = .ok config ∧
    withParameters files {} (some moved) = .ok config := by
  have hpieces : trimmedPieces ',' text = "config=conf" :: rest := by decide +kernel
  have hmoved : trimmedPieces ',' moved = rest ++ ["config=conf"] := by decide +kernel
  have hshuffled : Shuffled (trimmedPieces ',' text) (trimmedPieces ',' moved) := by
    rw [hpieces, hmoved]
    exact shuffled
  have hconfig : withParameters files {} (some text) = .ok config := by decide +kernel
  obtain ⟨-, -, horder⟩ := withParameters_last_wins files {} text
  exact ⟨hshuffled, hconfig, (horder moved hshuffled config).mpr hconfig⟩

end Sedge

end ProtoSchema
