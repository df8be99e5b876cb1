import ProtoSchema.Command
import ProtoSchema.Descriptor.Encode
import ProtoSchema.Proofs.ParameterStrings
import ProtoSchema.Proofs.WireRoundTrip

/-!
# The two front ends agree

Settings reach the command line as arguments and the plugin as a parameter
string. A `Choice` is what can be said in both ways, and `Choice.config` is
the configuration it stands for: the one of the configuration file, or the
default, with the chosen changes. Each front end is led to it on its own, the
command line by setting options one by one, the plugin by applying entries one
by one.

The descriptors are the same bytes for both: the command line reads them from
a file, the plugin puts them together from the files of its request. So both
ask for the same text. They only differ in the words for a failure, since the
command line says what it was doing and the plugin what went wrong; for this
reason outcomes are compared without their errors.
-/

namespace ProtoSchema

open ProtoSchema.Text

/-! ## Choices -/

/-- Where methods are chosen: in a configuration file, or name by name. -/
inductive Methods where
  | file (path : String)
  | names (queries mutations : List String)
  deriving DecidableEq, Repr

namespace Methods

def file? : Methods → Option String
  | file path => some path
  | names _ _ => none

def queries : Methods → List String
  | file _ => []
  | names queries _ => queries

def mutations : Methods → List String
  | file _ => []
  | names _ mutations => mutations

end Methods

/-- Settings that both front ends can be given. -/
structure Choice where
  methods : Methods := .names [] []
  extensions : Option String := none
  validate : Bool := true
  deriving DecidableEq, Repr

/-- Whether a text can be an argument and a part of a parameter string: it is
not empty, has no blanks around it and no separator inside, and it is no
option. -/
def isPlain (s : String) : Bool :=
  s ≠ "" && trim s = s && ',' ∉ s.toList && ';' ∉ s.toList && s.toList.head? ≠ some '-'

theorem isPlain_iff {s : String} :
    isPlain s ↔ s ≠ "" ∧ trim s = s ∧ ',' ∉ s.toList ∧ ';' ∉ s.toList ∧
      s.toList.head? ≠ some '-' := by
  simp only [isPlain, Bool.and_eq_true, decide_eq_true_eq, and_assoc]

theorem isItem_of_isPlain {s : String} (h : isPlain s) : IsItem ',' s ∧ IsItem ';' s := by
  obtain ⟨hne, htrim, hcomma, hsemicolon, -⟩ := isPlain_iff.mp h
  exact ⟨⟨hne, htrim, hcomma⟩, ⟨hne, htrim, hsemicolon⟩⟩

namespace Choice

/-- All texts of a choice. -/
def texts (c : Choice) : List String :=
  c.methods.file?.toList ++ c.methods.queries ++ c.methods.mutations ++ c.extensions.toList

/-- What a choice makes of the configuration that it starts from. -/
def adjust (c : Choice) (start : Config) : Config :=
  { start with
    extensions := c.extensions <|> start.extensions
    queries := start.queries ++ c.methods.queries
    mutations := start.mutations ++ c.methods.mutations
    validate := start.validate && c.validate }

/-- The configuration that a choice stands for. -/
def config (c : Choice) (files : FileTree) : Result Config :=
  match c.methods.file? with
  | some path => (Config.ofFile files path).map c.adjust
  | none => .ok (c.adjust {})

end Choice

/-! ## The command line -/

namespace Command

theorem isValue_of_isPlain {s : String} (h : isPlain s) : isValue s := by
  obtain ⟨-, -, -, -, hdash⟩ := isPlain_iff.mp h
  rw [isValue, Bool.or_eq_true, decide_eq_true_eq, decide_eq_true_eq]
  exact Or.inr hdash

/-- The two arguments that set an option. -/
def option (key : Key) (text : String) : List String :=
  ["-" ++ String.singleton key.short, text]

theorem ofText_option (key : Key) :
    Argument.ofText ("-" ++ String.singleton key.short) = .pending key := by
  cases key <;> rfl

theorem setOnce_none {path : String} (h : path ≠ "") : setOnce none path = .ok (some path) := by
  have hempty : path.isEmpty = false := by
    rw [Bool.eq_false_iff, ne_eq, String.isEmpty_iff]
    exact h
  rw [setOnce, hempty]
  rfl

/-- The arguments set an option: one that has the value in it, or two with the
value apart. -/
inductive Gives (key : Key) (text : String) : List String → Prop
  | attached {argument : String} (h : Argument.ofText argument = .value key text) :
      Gives key text [argument]
  | apart {argument : String} (h : Argument.ofText argument = .pending key)
      (hvalue : isValue text) : Gives key text [argument, text]

namespace Settings

/-- The step at an option. -/
theorem read_gives {s : Settings} {key : Key} {text : String} {given : List String}
    (h : Gives key text given) (rest : List String) :
    s.read (given ++ rest) = s.set key text >>= fun s₁ => s₁.read rest := by
  cases h with
  | attached h => rw [List.singleton_append, read, h]
  | apart h hvalue =>
      rw [List.cons_append, List.singleton_append, read, h]
      exact if_pos hvalue

theorem read_option {s s' : Settings} {key : Key} {text : String} (hvalue : isValue text)
    (hset : s.set key text = .ok s') (rest : List String) :
    s.read (option key text ++ rest) = s'.read rest := by
  have hgives : Gives key text (option key text) := .apart (ofText_option key) hvalue
  rw [read_gives hgives, hset]
  rfl

/-- A run of such steps, for an option that may be repeated. -/
theorem read_flatMap_option {key : Key} {step : Settings → String → Settings}
    (hset : ∀ (s : Settings) text, s.set key text = .ok (step s text)) {texts : List String}
    (hplain : ∀ text ∈ texts, isPlain text) (s : Settings) (rest : List String) :
    s.read (texts.flatMap (option key) ++ rest) = (texts.foldl step s).read rest := by
  induction texts generalizing s with
  | nil => rfl
  | cons text texts ih =>
      rw [List.flatMap_cons, List.append_assoc,
        read_option (isValue_of_isPlain (hplain text List.mem_cons_self)) (hset s text),
        ih (fun t ht => hplain t (List.mem_cons_of_mem text ht)), List.foldl_cons]

theorem read_queries {texts : List String} (hplain : ∀ text ∈ texts, isPlain text)
    (s : Settings) (rest : List String) :
    s.read (texts.flatMap (option .query) ++ rest) =
      { s with queries := s.queries ++ texts }.read rest := by
  have hset : ∀ (s : Settings) text,
      s.set .query text = .ok { s with queries := s.queries ++ [text] } := fun _ _ => rfl
  rw [read_flatMap_option hset hplain,
    foldl_extend queries (fun s texts => { s with queries := texts }) (fun _ _ => rfl)
      (fun _ _ _ => rfl) (fun _ => rfl)]

theorem read_mutations {texts : List String} (hplain : ∀ text ∈ texts, isPlain text)
    (s : Settings) (rest : List String) :
    s.read (texts.flatMap (option .mutation) ++ rest) =
      { s with mutations := s.mutations ++ texts }.read rest := by
  have hset : ∀ (s : Settings) text,
      s.set .mutation text = .ok { s with mutations := s.mutations ++ [text] } := fun _ _ => rfl
  rw [read_flatMap_option hset hplain,
    foldl_extend mutations (fun s texts => { s with mutations := texts }) (fun _ _ => rfl)
      (fun _ _ _ => rfl) (fun _ => rfl)]

/-- The step at an option for a path, which may be left out. -/
theorem read_path {s : Settings} {key : Key} (put : Option String → Settings)
    (hnone : s = put none) (hset : ∀ {path}, path ≠ "" → s.set key path = .ok (put (some path)))
    {path? : Option String} (hplain : ∀ path ∈ path?, isPlain path) (rest : List String) :
    s.read (path?.toList.flatMap (option key) ++ rest) = (put path?).read rest := by
  cases path? with
  | none =>
      rw [← hnone]
      rfl
  | some path =>
      have hpath := hplain path rfl
      rw [Option.toList_some, List.flatMap_singleton,
        read_option (isValue_of_isPlain hpath) (hset (isPlain_iff.mp hpath).1)]

theorem read_config {s : Settings} (hnone : s.config = none) {path? : Option String}
    (hplain : ∀ path ∈ path?, isPlain path) (rest : List String) :
    s.read (path?.toList.flatMap (option .config) ++ rest) =
      { s with config := path? }.read rest := by
  refine read_path (fun x => { s with config := x }) ?_ (fun hne => ?_) hplain rest
  · cases s
    cases hnone
    rfl
  · rw [set, hnone, setOnce_none hne]
    rfl

theorem read_extensions {s : Settings} (hnone : s.extensions = none) {path? : Option String}
    (hplain : ∀ path ∈ path?, isPlain path) (rest : List String) :
    s.read (path?.toList.flatMap (option .extensions) ++ rest) =
      { s with extensions := path? }.read rest := by
  refine read_path (fun x => { s with extensions := x }) ?_ (fun hne => ?_) hplain rest
  · cases s
    cases hnone
    rfl
  · rw [set, hnone, setOnce_none hne]
    rfl

theorem read_validate {s : Settings} (hnone : s.noValidate = false) (validate : Bool) :
    s.read (if validate then [] else ["--no-validate"]) =
      .ok { s with noValidate := !validate } := by
  cases validate with
  | true =>
      rw [Bool.not_true, ← hnone]
      rfl
  | false =>
      have hflag : Argument.ofText "--no-validate" = .noValidate := by decide
      rw [if_neg Bool.false_ne_true, read, hflag]
      simp only [hnone]
      rfl

end Settings

end Command

namespace Choice

open ProtoSchema.Command

/-- The arguments that state a choice. -/
def arguments (c : Choice) (descriptorSet : String) : List String :=
  option .descriptorSet descriptorSet ++
  (c.methods.file?.toList.flatMap (option .config) ++
  (c.methods.queries.flatMap (option .query) ++
  (c.methods.mutations.flatMap (option .mutation) ++
  (c.extensions.toList.flatMap (option .extensions) ++
  if c.validate then [] else ["--no-validate"]))))

def settings (c : Choice) (descriptorSet : String) : Settings :=
  { descriptorSet := some descriptorSet
    config := c.methods.file?
    extensions := c.extensions
    queries := c.methods.queries
    mutations := c.methods.mutations
    noValidate := !c.validate }

theorem read_arguments {c : Choice} (hplain : ∀ s ∈ c.texts, isPlain s) {descriptorSet : String}
    (hne : descriptorSet ≠ "") (hvalue : isValue descriptorSet) :
    Settings.read {} (c.arguments descriptorSet) = .ok (c.settings descriptorSet) := by
  simp only [texts, List.forall_mem_append, Option.mem_toList] at hplain
  obtain ⟨⟨⟨hfile, hqueries⟩, hmutations⟩, hextensions⟩ := hplain
  have hset : Settings.set {} .descriptorSet descriptorSet =
      .ok { descriptorSet := some descriptorSet } := by
    rw [Settings.set, setOnce_none hne]
    rfl
  rw [arguments, Settings.read_option hvalue hset, Settings.read_config rfl hfile,
    Settings.read_queries hqueries, Settings.read_mutations hmutations,
    Settings.read_extensions rfl hextensions, Settings.read_validate rfl]
  rfl

theorem toOption_toConfig (c : Choice) (descriptorSet : String) (files : FileTree) :
    ((c.settings descriptorSet).toConfig files).toOption = (c.config files).toOption := by
  obtain ⟨methods, extensions, validate⟩ := c
  simp only [Settings.toConfig, settings, Bool.not_not]
  cases methods with
  | file path =>
      show (context _ (Config.ofFile files path) >>= _).toOption =
        ((Config.ofFile files path).map _).toOption
      cases Config.ofFile files path with
      | error e => rfl
      | ok start => rfl
  | names queries mutations => rfl

/-! ## The plugin -/

open ProtoSchema.Config (Parameter)

/-- The entry for a list of names, unless there are none. -/
def listEntry (key : String) (names : List String) : List Parameter :=
  if names.isEmpty then [] else [{ key, value := ";".intercalate names }]

/-- The entries that change a configuration. -/
def changes (c : Choice) : List Parameter :=
  listEntry "queries" c.methods.queries ++
  (listEntry "mutations" c.methods.mutations ++
  (c.extensions.toList.map (Parameter.mk "extensions") ++
  if c.validate then [] else [Parameter.mk "validate" "false"]))

/-- The entries that state a choice. -/
def entries (c : Choice) : List Parameter :=
  c.methods.file?.toList.map (Parameter.mk "config") ++ c.changes

/-- The parameter string that states a choice. -/
def parameter (c : Choice) : String :=
  ",".intercalate (c.entries.map Parameter.text)

theorem isItem_intercalate {names : List String} (hne : names ≠ [])
    (hplain : ∀ s ∈ names, isPlain s) : IsItem ',' (";".intercalate names) := by
  obtain ⟨name, names, rfl⟩ := List.exists_cons_of_ne_nil hne
  have hitems : ∀ s ∈ name :: names, IsItem ';' s := fun s hs => (isItem_of_isPlain (hplain s hs)).2
  exact ⟨intercalate_ne_empty hitems, trim_intercalate hitems,
    notMem_intercalate (by decide) fun s hs => (isItem_of_isPlain (hplain s hs)).1.sep_notMem⟩

/-- The keys that a choice may have entries for. -/
def keys : List String :=
  ["config", "queries", "mutations", "extensions", "validate"]

theorem isPlain_entry {key value : String} (hkey : key ∈ keys) (hvalue : IsItem ',' value) :
    (Parameter.mk key value).IsPlain := by
  have hkeys : ∀ key ∈ keys, key ≠ "" ∧ trim key = key ∧ ',' ∉ key.toList ∧ '=' ∉ key.toList := by
    decide
  obtain ⟨hne, htrim, hcomma, hequals⟩ := hkeys key hkey
  exact ⟨⟨hne, htrim, hcomma⟩, hvalue, hequals⟩

theorem eq_of_mem_listEntry {key : String} {names : List String} {p : Parameter}
    (h : p ∈ listEntry key names) : names ≠ [] ∧ p = { key, value := ";".intercalate names } := by
  rw [listEntry] at h
  split at h
  next => exact absurd h List.not_mem_nil
  next hne => exact ⟨fun hnil => hne (hnil ▸ rfl), List.mem_singleton.mp h⟩

theorem isPlain_listEntry {key : String} (hkey : key ∈ keys) {names : List String}
    (hplain : ∀ s ∈ names, isPlain s) : ∀ p ∈ listEntry key names, p.IsPlain := by
  intro p hp
  obtain ⟨hne, rfl⟩ := eq_of_mem_listEntry hp
  exact isPlain_entry hkey (isItem_intercalate hne hplain)

theorem eq_of_mem_flag {validate : Bool} {p : Parameter}
    (h : p ∈ if validate then [] else [Parameter.mk "validate" "false"]) :
    p = { key := "validate", value := "false" } := by
  split at h
  next => exact absurd h List.not_mem_nil
  next => exact List.mem_singleton.mp h

theorem isPlain_entries {c : Choice} (hplain : ∀ s ∈ c.texts, isPlain s) :
    ∀ p ∈ c.entries, p.IsPlain := by
  simp only [texts, List.forall_mem_append] at hplain
  obtain ⟨⟨⟨hfile, hqueries⟩, hmutations⟩, hextensions⟩ := hplain
  have hitem : ∀ {s : String}, isPlain s → IsItem ',' s := fun h => (isItem_of_isPlain h).1
  simp only [entries, changes, List.forall_mem_append, List.forall_mem_map]
  refine ⟨?_, ?_, ?_, ?_, ?_⟩
  · exact fun path hpath => isPlain_entry (by decide) (hitem (hfile path hpath))
  · exact isPlain_listEntry (by decide) hqueries
  · exact isPlain_listEntry (by decide) hmutations
  · exact fun path hpath => isPlain_entry (by decide) (hitem (hextensions path hpath))
  · intro p hp
    rw [eq_of_mem_flag hp]
    exact isPlain_entry (by decide) ⟨by decide, by decide, by decide⟩

theorem key_changes (c : Choice) : ∀ p ∈ c.changes, p.key ≠ "config" := by
  simp only [changes, List.forall_mem_append, List.forall_mem_map]
  refine ⟨?_, ?_, ?_, ?_⟩
  · intro p hp
    rw [(eq_of_mem_listEntry hp).2]
    show "queries" ≠ "config"
    decide
  · intro p hp
    rw [(eq_of_mem_listEntry hp).2]
    show "mutations" ≠ "config"
    decide
  · intro path hpath
    show "extensions" ≠ "config"
    decide
  · intro p hp
    rw [eq_of_mem_flag hp]
    decide

theorem configFile?_entries (c : Choice) : Config.configFile? c.entries = c.methods.file? := by
  have hchanges : c.changes.find? (·.key = "config") = none :=
    List.find?_eq_none.mpr fun p hp => by
      rw [decide_eq_true_eq]
      exact c.key_changes p hp
  rw [Config.configFile?, entries]
  cases c.methods.file? with
  | none =>
      rw [Option.toList_none, List.map_nil, List.nil_append, hchanges]
      rfl
  | some path => rfl

/-! What the entries of a choice do to a configuration, kind by kind. -/

theorem foldlM_file (path? : Option String) (start : Config) :
    (path?.toList.map (Parameter.mk "config")).foldlM Config.apply start = .ok start := by
  cases path? with
  | none => rfl
  | some path => rfl

theorem foldlM_extensions (path? : Option String) (start : Config) :
    (path?.toList.map (Parameter.mk "extensions")).foldlM Config.apply start =
      .ok { start with extensions := path? <|> start.extensions } := by
  cases path? with
  | none => rfl
  | some path => rfl

theorem foldlM_validate (validate : Bool) (start : Config) :
    (if validate then [] else [Parameter.mk "validate" "false"]).foldlM Config.apply start =
      .ok { start with validate := start.validate && validate } := by
  cases validate with
  | true =>
      rw [Bool.and_true]
      rfl
  | false =>
      rw [Bool.and_false]
      rfl

/-- A list replaces the one before, so one of the two has to be empty for it
to be added. -/
theorem foldlM_listEntry {key : String} (get : Config → List String)
    (put : Config → List String → Config) (hself : ∀ start, put start (get start) = start)
    (happly : ∀ start value,
      Config.apply start { key, value } = .ok (put start (Config.trimmedPieces ';' value)))
    {names : List String} (hplain : ∀ s ∈ names, isPlain s) {start : Config}
    (hempty : names = [] ∨ get start = []) :
    (listEntry key names).foldlM Config.apply start = .ok (put start (get start ++ names)) := by
  cases names with
  | nil =>
      rw [List.append_nil, hself]
      rfl
  | cons name names =>
      have hitems : ∀ s ∈ name :: names, IsItem ';' s :=
        fun s hs => (isItem_of_isPlain (hplain s hs)).2
      have hvalue : Config.trimmedPieces ';' (";".intercalate (name :: names)) = name :: names :=
        Config.trimmedPieces_intercalate (by decide) hitems
      show ([{ key, value := ";".intercalate (name :: names) }] : List Parameter).foldlM
        Config.apply start = _
      rw [List.foldlM_cons, happly, hvalue, hempty.resolve_left (List.cons_ne_nil _ _),
        List.nil_append]
      rfl

theorem foldlM_entries {c : Choice} (hplain : ∀ s ∈ c.texts, isPlain s) {start : Config}
    (hqueries : c.methods.queries = [] ∨ start.queries = [])
    (hmutations : c.methods.mutations = [] ∨ start.mutations = []) :
    c.entries.foldlM Config.apply start = .ok (c.adjust start) := by
  simp only [texts, List.forall_mem_append] at hplain
  obtain ⟨⟨⟨-, hplainQueries⟩, hplainMutations⟩, -⟩ := hplain
  have hq : (listEntry "queries" c.methods.queries).foldlM Config.apply start =
      .ok { start with queries := start.queries ++ c.methods.queries } :=
    foldlM_listEntry Config.queries (fun start names => { start with queries := names })
      (fun _ => rfl) (fun _ _ => rfl) hplainQueries hqueries
  have hm : ∀ queries,
      (listEntry "mutations" c.methods.mutations).foldlM Config.apply { start with queries } =
        .ok { start with queries, mutations := start.mutations ++ c.methods.mutations } :=
    fun _ => foldlM_listEntry Config.mutations
      (fun start names => { start with mutations := names }) (fun _ => rfl) (fun _ _ => rfl)
      hplainMutations hmutations
  rw [entries, foldlM_append_of_ok (foldlM_file _ _), changes, foldlM_append_of_ok hq,
    foldlM_append_of_ok (hm _), foldlM_append_of_ok (foldlM_extensions _ _),
    foldlM_validate]
  rfl

theorem withParameters_parameter {c : Choice} (hplain : ∀ s ∈ c.texts, isPlain s)
    (files : FileTree) :
    Config.withParameters files {} (some c.parameter) = c.config files := by
  have hparameters := Config.parameters_intercalate (isPlain_entries hplain)
  show (Config.parameters c.parameter >>= fun ps =>
    Config.startFrom files {} ps >>= fun start => ps.foldlM Config.apply start) = c.config files
  rw [parameter, hparameters]
  show (Config.startFrom files {} c.entries >>= fun start =>
    c.entries.foldlM Config.apply start) = c.config files
  rw [Config.startFrom, configFile?_entries, config]
  cases hmethods : c.methods with
  | file path =>
      show (Config.ofFile files path >>= fun start => c.entries.foldlM Config.apply start) =
        (Config.ofFile files path).map c.adjust
      cases Config.ofFile files path with
      | error e => rfl
      | ok start =>
          refine foldlM_entries hplain (Or.inl ?_) (Or.inl ?_) <;> rw [hmethods] <;> rfl
  | names queries mutations => exact foldlM_entries hplain (Or.inr rfl) (Or.inr rfl)

/-- A choice of nothing may also be stated by no parameter at all. -/
theorem withParameters_of_getD {c : Choice} (hplain : ∀ s ∈ c.texts, isPlain s)
    {parameter : Option String} (h : parameter.getD "" = c.parameter) (files : FileTree) :
    Config.withParameters files {} parameter = c.config files := by
  have hparameter := withParameters_parameter hplain files
  rw [← h] at hparameter
  cases parameter with
  | none => exact hparameter
  | some text => exact hparameter

/-! ## Both -/

theorem ne_empty_of_read {files : FileTree} {path : String} {content : Wire.Bytes}
    (h : files.read path = .ok content) : path ≠ "" := by
  rintro rfl
  have hnone : files.read "" = .error .notFound := rfl
  rw [hnone] at h
  cases h

/-- The arguments of a choice lead to a run that prints or fails. -/
theorem exits_iff {c : Choice} (hplain : ∀ s ∈ c.texts, isPlain s) {descriptorSet : String}
    (hne : descriptorSet ≠ "") (hvalue : Command.isValue descriptorSet) (files : FileTree) :
    (∀ text, (Command.run (c.arguments descriptorSet) files).exitCode = 0 ∧
        (Command.run (c.arguments descriptorSet) files).stdout = text ↔
      ((c.settings descriptorSet).schema descriptorSet files).toOption = some text) ∧
    ((Command.run (c.arguments descriptorSet) files).exitCode = 1 ↔
      ((c.settings descriptorSet).schema descriptorSet files).toOption = none) := by
  have haction : Command.action (c.arguments descriptorSet) files =
      (c.settings descriptorSet).action files := by
    rw [Command.action, read_arguments hplain hne hvalue]
  have hset : (c.settings descriptorSet).descriptorSet = some descriptorSet := rfl
  have houtput : (c.settings descriptorSet).output = none := rfl
  rw [Command.run, haction]
  cases hschema : (c.settings descriptorSet).schema descriptorSet files with
  | error words =>
      have hfail : (c.settings descriptorSet).action files = .fail words := by
        simp only [Settings.action, hset, hschema]
      simp [hfail, Action.run, Except.toOption]
  | ok text =>
      have hprint : (c.settings descriptorSet).action files = .print text := by
        simp only [Settings.action, hset, hschema, houtput]
      simp [hprint, Action.run, Except.toOption]

theorem responds_iff {r : Plugin.Request} (h : r.encode.length < Wire.wordLimit)
    (files : FileTree) :
    (∀ written, Plugin.respond files r.encode = { error := none, files := written } ↔
      Plugin.generateFiles files r = .ok written) ∧
    ((∃ message, Plugin.respond files r.encode = { error := some message, files := [] }) ↔
      ∃ e, Plugin.generateFiles files r = .error e) := by
  rw [Plugin.respond, Plugin.Request.decode_encode h]
  have hbind : ((Except.ok r : Except Wire.Refusal Plugin.Request).mapError Error.decode >>=
      Plugin.generateFiles files) = Plugin.generateFiles files r := rfl
  rw [hbind]
  cases Plugin.generateFiles files r with
  | error e => simp
  | ok written => simp

/-- The two ways to a text differ in their errors only. -/
theorem schema_iff_generateFiles {c : Choice} (hplain : ∀ s ∈ c.texts, isPlain s)
    {files : FileTree} {descriptorSet : String} {r : Plugin.Request}
    (hset : files.read descriptorSet = .ok (FileSet.encode { files := r.protoFiles }))
    (hparameter : r.parameter.getD "" = c.parameter) :
    (∀ text, ((c.settings descriptorSet).schema descriptorSet files).toOption = some text ↔
      ∃ name, Plugin.generateFiles files r =
        .ok [{ name := some name, content := some text }]) ∧
    (((c.settings descriptorSet).schema descriptorSet files).toOption = none ↔
      ∃ e, Plugin.generateFiles files r = .error e) := by
  have hpool : Pool.loadFile files descriptorSet = Pool.ofFileBytes r.protoFiles := by
    rw [Pool.loadFile, hset]
    rfl
  rw [Command.Settings.schema, toOption_bind, toOption_toConfig, Plugin.generateFiles,
    withParameters_of_getD hplain hparameter, hpool]
  cases c.config files with
  | error e => simp [Except.toOption, bind, Except.bind]
  | ok config =>
      cases Pool.ofFileBytes r.protoFiles with
      | error e => simp [Except.toOption, Command.context, Except.mapError, bind, Except.bind]
      | ok pool =>
          show (∀ text, ((generate files pool config).mapError Error.message).toOption = some text ↔
            ∃ name, (generate files pool config >>= _) = _) ∧
            (((generate files pool config).mapError Error.message).toOption = none ↔
              ∃ e, (generate files pool config >>= _) = _)
          cases generate files pool config with
          | error e => simp [Except.toOption, Except.mapError, bind, Except.bind]
          | ok text => simp [Except.toOption, Except.mapError, bind, Except.bind, pure, Except.pure]

/-- The command line prints a text exactly when the plugin answers with no
error and one file of this text, and it fails exactly when the plugin reports
an error. The length of the request is a number of 64 bits, as that of
everything in memory. -/
theorem run_iff_respond {c : Choice} (hplain : ∀ s ∈ c.texts, isPlain s) {files : FileTree}
    {descriptorSet : String} (hvalue : Command.isValue descriptorSet) {r : Plugin.Request}
    (hset : files.read descriptorSet = .ok (FileSet.encode { files := r.protoFiles }))
    (hparameter : r.parameter.getD "" = c.parameter) (hsize : r.encode.length < Wire.wordLimit) :
    (∀ text, (Command.run (c.arguments descriptorSet) files).exitCode = 0 ∧
        (Command.run (c.arguments descriptorSet) files).stdout = text ↔
      ∃ name, Plugin.respond files r.encode =
        { error := none, files := [{ name := some name, content := some text }] }) ∧
    ((Command.run (c.arguments descriptorSet) files).exitCode = 1 ↔
      ∃ message, Plugin.respond files r.encode = { error := some message, files := [] }) := by
  obtain ⟨hprints, hfails⟩ := exits_iff hplain (ne_empty_of_read hset) hvalue files
  obtain ⟨hanswers, hreports⟩ := responds_iff hsize files
  obtain ⟨htext, herror⟩ := schema_iff_generateFiles hplain hset hparameter
  refine ⟨fun text => ?_, hfails.trans (herror.trans hreports.symm)⟩
  rw [hprints, htext]
  simp only [hanswers]

end Choice

end ProtoSchema

namespace ProtoSchema.Fern

open ProtoSchema.Plugin

/-- A file with a message and a service of one method. -/
def file : Descriptor.File :=
  { name := some "fern.proto"
    package := some "fern"
    messages := [{ name := some "Leaf" }]
    services := [{ name := some "Bed",
                   methods := [{ name := some "Dip", inputType := some ".fern.Leaf",
                                 outputType := some ".fern.Leaf" }] }]
    isProto3 := true }

def choice : Choice :=
  { methods := .file "conf", validate := false }

def request : Request :=
  { filesToGenerate := ["fern.proto"]
    parameter := some "config=conf,validate=false"
    protoFiles := [file.encode] }

def files : FileTree :=
  { entries :=
      [(["conf"], .file (Wire.writeText "\x7b\"output\": \"fern.py\"\x7d")),
       (["set"], .file (FileSet.encode { files := request.protoFiles }))] }

/-- The run prints a schema, so the plugin answers with a file. -/
theorem run_iff_respond_choice :
    (Command.run (choice.arguments "set") files).exitCode = 0 ∧
    ∃ name, respond files request.encode =
      { error := none
        files := [{ name := some name
                    content := some (Command.run (choice.arguments "set") files).stdout }] } := by
  have hplain : ∀ s ∈ choice.texts, isPlain s := by decide
  have hset : files.read "set" = .ok (FileSet.encode { files := request.protoFiles }) := by
    decide +kernel
  have hparameter : request.parameter.getD "" = choice.parameter := by decide +kernel
  have hsize : request.encode.length < Wire.wordLimit := by decide +kernel
  have hprints : (Command.run (choice.arguments "set") files).exitCode = 0 := by decide +kernel
  obtain ⟨hagree, -⟩ := Choice.run_iff_respond hplain (by decide) hset hparameter hsize
  exact ⟨hprints, (hagree _).mp ⟨hprints, rfl⟩⟩

end ProtoSchema.Fern
