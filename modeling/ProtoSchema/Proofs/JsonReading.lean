import Mathlib.Data.List.TakeWhile
import ProtoSchema.Json.Record
import ProtoSchema.Proofs.JsonSpelling

/-!
# Reading any text of a value

Whoever reads a value reads all of its texts alike, and stops right behind it.

Stepping over a value comes first. The skipping loop keeps a stack of open
brackets where the value is a tree: the stack below the value does not change
while its tokens go by, and lists and objects differ only in what stands in
front of an entry's value.

Then the readers, each by what it takes from a value's texts (`Reader.Takes`).
A record is read from an object by updates, one for each member and none for
the members it does not know, so the record that comes out is a fold over the
members as they stand (`Layout.takes_object`); their order and what is missing
are left to whoever knows the updates.
-/

namespace ProtoSchema.Json

/-! ## Stepping over a value -/

section Steps

variable {stack : List Frame} {frame : Frame} {input rest rest' : List Char} {c : Char}

theorem skipFrom_simple (h : skipSimple (skipBlanks input) = .ok (none, rest)) :
    skipFrom .value stack input = skipFrom .after stack rest := by
  rw [skipFrom]
  grind

theorem skipFrom_bracket (h : skipSimple (skipBlanks input) = .ok (some frame, rest)) :
    skipFrom .value stack input = skipFrom .opened (frame :: stack) rest := by
  rw [skipFrom]
  grind

theorem skipFrom_opened_close (h : skipBlanks input = frame.close :: rest) :
    skipFrom .opened (frame :: stack) input = skipFrom .after stack rest := by
  rw [skipFrom]
  grind

theorem skipFrom_opened_entry (h : skipBlanks input = c :: rest) (hc : c ≠ frame.close)
    (hk : skipKey frame (c :: rest) = .ok rest') :
    skipFrom .opened (frame :: stack) input = skipFrom .value (frame :: stack) rest' := by
  conv_lhs => rw [skipFrom]
  grind

theorem Frame.close_ne_comma (frame : Frame) : frame.close ≠ ',' := by
  cases frame <;> decide

theorem skipFrom_after_close (h : skipBlanks input = frame.close :: rest) :
    skipFrom .after (frame :: stack) input = skipFrom .after stack rest := by
  have := frame.close_ne_comma
  rw [skipFrom]
  grind

theorem skipFrom_after_comma (h : skipBlanks input = ',' :: rest)
    (hk : skipKey frame rest = .ok rest') :
    skipFrom .after (frame :: stack) input = skipFrom .value (frame :: stack) rest' := by
  conv_lhs => rw [skipFrom]
  grind

end Steps

/-- An entry between brackets is stepped over: what stands in front of its
value, and then the value. -/
def Frame.Skips (frame : Frame) (entry : List (List Char)) : Prop :=
  ∀ (stack : List Frame) (text rest : List Char), Spaced entry text → Stops rest →
    ∃ behind, skipKey frame (text ++ rest) = .ok behind ∧
      skipFrom .value stack behind = skipFrom .after stack rest

namespace Frame

variable {frame : Frame} {entries : List (List (List Char))} {stack : List Frame}
  {text : List Char}

theorem not_isBlank_close (frame : Frame) : ¬ isBlank frame.close := by
  cases frame <;> decide

theorem moreTokens_cons (frame : Frame) (entry : List (List Char))
    (entries : List (List (List Char))) :
    frame.moreTokens (entry :: entries) = [','] :: (entry ++ frame.moreTokens entries) := by
  simp [moreTokens]

theorem stops_more (h : Spaced (frame.moreTokens entries) text) (rest : List Char) :
    Stops (text ++ rest) := by
  cases entries with
  | nil =>
      refine Spaced.stops_append h ?_ rest
      rintro c ⟨⟩
      cases frame <;> decide
  | cons entry entries =>
      rw [moreTokens_cons] at h
      refine h.stops_append ?_ rest
      rintro c ⟨⟩
      decide

/-- A comma, the next entry, and what follows it. -/
theorem exists_of_more {entry : List (List Char)}
    (h : Spaced (frame.moreTokens (entry :: entries)) text) (rest : List Char) :
    ∃ front back, Spaced entry front ∧ Spaced (frame.moreTokens entries) back ∧
      skipBlanks (text ++ rest) = ',' :: (front ++ (back ++ rest)) := by
  rw [moreTokens_cons] at h
  obtain ⟨body, hbody, hcomma⟩ := h.skipBlanks_append (by decide) rest
  obtain ⟨front, back, hfront, hback, rfl⟩ := hbody.exists_of_append
  exact ⟨front, back, hfront, hback, by rw [hcomma, List.nil_append, List.append_assoc]⟩

theorem skips_more (he : ∀ entry ∈ entries, frame.Skips entry)
    (h : Spaced (frame.moreTokens entries) text) (rest : List Char) :
    skipFrom .after (frame :: stack) (text ++ rest) = skipFrom .after stack rest := by
  induction entries generalizing text with
  | nil =>
      have hclose : Spaced [[frame.close]] text := h
      exact skipFrom_after_close (hclose.skipBlanks_singleton frame.not_isBlank_close rest)
  | cons entry entries ih =>
      obtain ⟨front, back, hfront, hback, hcomma⟩ := exists_of_more h rest
      obtain ⟨behind, hkey, hvalue⟩ := he entry List.mem_cons_self (frame :: stack) front
        (back ++ rest) hfront (stops_more hback rest)
      rw [skipFrom_after_comma hcomma hkey, hvalue]
      exact ih (fun e h => he e (List.mem_cons_of_mem _ h)) hback

/-- From behind an opening bracket to behind the closing one. -/
theorem skips_tokens (he : ∀ entry ∈ entries, frame.Skips entry)
    (hc : ∀ entry ∈ entries, ∃ c token tokens, entry = (c :: token) :: tokens ∧ startsValue c)
    (h : Spaced (frame.tokens entries) text) (rest : List Char) :
    skipFrom .opened (frame :: stack) (text ++ rest) = skipFrom .after stack rest := by
  cases entries with
  | nil => exact skipFrom_opened_close (h.skipBlanks_singleton frame.not_isBlank_close rest)
  | cons entry entries =>
      obtain ⟨front, back, hfront, hback, rfl⟩ := Spaced.exists_of_append h
      obtain ⟨c, token, tokens, rfl, hstart⟩ := hc entry List.mem_cons_self
      obtain ⟨hblank, -, hlist, hobject⟩ := startsValue_ne hstart
      -- the loop looks for the key in the text without its blanks, which has the same tokens
      obtain ⟨body, hbody, hskip⟩ := hfront.strip hblank (back ++ rest)
      obtain ⟨behind, hkey, hvalue⟩ := he _ List.mem_cons_self (frame :: stack) _
        (back ++ rest) hbody (stops_more hback rest)
      have hclose : c ≠ frame.close := by cases frame <;> assumption
      rw [List.append_assoc, skipFrom_opened_entry hskip hclose hkey, hvalue]
      exact skips_more (fun e h => he e (List.mem_cons_of_mem _ h)) hback rest

end Frame

theorem skipSimple_digit {d : Char} (hd : d.isDigit) (rest : List Char) :
    skipSimple (d :: rest) = (skipUnsigned (d :: rest)).map (none, ·) := by
  have hne : ∀ c ∈ ['n', 't', 'f', '"', '[', '-', '\x7b'], d ≠ c := by
    intro c hc hdc
    have hdigit : ∀ c ∈ ['n', 't', 'f', '"', '[', '-', '\x7b'], ¬ c.isDigit := by simp
    exact hdigit c hc (hdc ▸ hd)
  simp only [List.forall_mem_cons] at hne
  simp [skipSimple, hne, hd]

theorem skipSimple_number (isNegative : Bool) {p : NumberParts} {rest : List Char}
    (hp : p.IsNumber) (hr : Stops rest) :
    skipSimple ((if isNegative then ['-'] else []) ++ p.print ++ rest) = .ok (none, rest) := by
  have hskip : skipUnsigned (p.print ++ rest) = .ok rest := by
    rw [skipUnsigned, NumberParts.readUnsigned_print hp hr]
    rfl
  cases isNegative with
  | true =>
      rw [if_pos rfl, List.append_assoc, List.singleton_append, skipSimple, hskip]
      rfl
  | false =>
      obtain ⟨d, ds, hprint, hd⟩ := NumberParts.exists_print_eq hp
      rw [if_neg Bool.false_ne_true, List.nil_append]
      rw [hprint, List.cons_append] at hskip ⊢
      rw [skipSimple_digit hd, hskip]
      rfl

namespace Value.IsJson

/-- A value is stepped over whatever brackets are open around it. -/
theorem skipFrom_append {v : Value} (h : v.IsJson) {stack : List Frame} {text rest : List Char}
    (ht : Spaced v.tokens text) (hr : Stops rest) :
    skipFrom .value stack (text ++ rest) = skipFrom .after stack rest := by
  -- the stack is general: the values inside brackets have one frame more below them
  induction h generalizing stack text rest with
  | null =>
      apply skipFrom_simple
      rw [Spaced.skipBlanks_singleton ht (by decide)]
      rfl
  | bool b =>
      apply skipFrom_simple
      cases b with
      | false =>
          rw [Spaced.skipBlanks_singleton ht (by decide)]
          rfl
      | true =>
          rw [Spaced.skipBlanks_singleton ht (by decide)]
          rfl
  | number isNegative hparts =>
      apply skipFrom_simple
      obtain ⟨c, token, _, htokens, hstart⟩ := (IsJson.number isNegative hparts).exists_tokens_eq
      simp only [Value.tokens, List.cons.injEq] at htokens ht
      rw [htokens.1] at ht
      rw [ht.skipBlanks_singleton (startsValue_ne hstart).1, ← List.cons_append, ← htokens.1]
      exact skipSimple_number isNegative hparts hr
  | string s =>
      obtain ⟨body, hbody, hskip⟩ := Spaced.skipBlanks_string ht rest
      cases hbody
      apply skipFrom_simple
      rw [hskip, skipSimple, skipChars_print]
      rfl
  | @array items hitems ih =>
      rw [Value.tokens_array] at ht
      obtain ⟨body, hbody, hskip⟩ := ht.skipBlanks_append (by decide) rest
      have hopen : skipSimple (skipBlanks (text ++ rest)) = .ok (some .list, body ++ rest) := by
        rw [hskip]
        rfl
      rw [skipFrom_bracket hopen]
      refine Frame.skips_tokens ?_ ?_ hbody rest
      · intro entry hentry
        obtain ⟨v, hv, rfl⟩ := List.mem_map.mp hentry
        intro stack text rest ht hr
        exact ⟨_, rfl, ih v hv ht hr⟩
      · intro entry hentry
        obtain ⟨v, hv, rfl⟩ := List.mem_map.mp hentry
        exact (hitems v hv).exists_tokens_eq
  | @object members hmembers ih =>
      rw [Value.tokens_object] at ht
      obtain ⟨body, hbody, hskip⟩ := ht.skipBlanks_append (by decide) rest
      have hopen : skipSimple (skipBlanks (text ++ rest)) = .ok (some .object, body ++ rest) := by
        rw [hskip]
        rfl
      rw [skipFrom_bracket hopen]
      refine Frame.skips_tokens ?_ ?_ hbody rest
      · intro entry hentry
        obtain ⟨m, hm, rfl⟩ := List.mem_map.mp hentry
        intro stack text rest ht hr
        -- key and colon go first, then the induction takes over
        obtain ⟨colon, hcolon, hkey⟩ := Spaced.skipBlanks_string ht rest
        obtain ⟨value, hvalue, htake⟩ := hcolon.takeColon rest
        refine ⟨_, ?_, ih m hm hvalue hr⟩
        simp only [skipKey, hkey, skipChars_print, htake]
      · intro entry hentry
        obtain ⟨m, -, rfl⟩ := List.mem_map.mp hentry
        exact ⟨'"', _, _, rfl, by decide⟩

theorem skipValue_append {v : Value} (h : v.IsJson) {text rest : List Char}
    (ht : Spaced v.tokens text) (hr : Stops rest) : skipValue (text ++ rest) = .ok rest := by
  rw [skipValue, h.skipFrom_append ht hr, skipFrom]

end Value.IsJson

/-! ## Readers -/

/-- From each text of `v` the reader takes `a`, and it leaves what stands
behind. -/
def Reader.Takes {α : Type} (r : Reader α) (v : Value) (a : α) : Prop :=
  ∀ text rest : List Char, Spaced v.tokens text → Stops rest → r.run (text ++ rest) = .ok (a, rest)

namespace Reader

variable {α β : Type} {r : Reader α} {v : Value} {a : α}

theorem takes_text (expected s : String) : (text expected).Takes (.string s) s := by
  intro text rest ht hr
  obtain ⟨body, hbody, hskip⟩ := Spaced.skipBlanks_string ht rest
  cases hbody
  simp [Reader.text, runText, hskip, readChars_print, Except.map]

theorem takes_flag (b : Bool) : flag.Takes (.bool b) b := by
  intro text rest ht hr
  cases b with
  | false =>
      have hskip := Spaced.skipBlanks_singleton ht (by decide) rest
      simp only [flag, runFlag, hskip]
      rfl
  | true =>
      have hskip := Spaced.skipBlanks_singleton ht (by decide) rest
      simp only [flag, runFlag, hskip]
      rfl

theorem Takes.map (h : r.Takes v a) (f : α → β) : (r.map f).Takes v (f a) := by
  intro text rest ht hr
  simp only [Reader.map, h text rest ht hr]
  rfl

theorem takes_optional_null (r : Reader α) : r.optional.Takes .null none := by
  intro text rest ht hr
  have hskip := Spaced.skipBlanks_singleton ht (by decide) rest
  simp only [optional, runOptional, hskip]
  rfl

theorem Takes.optional {s : String} (h : r.Takes (.string s) a) :
    r.optional.Takes (.string s) (some a) := by
  intro text rest ht hr
  obtain ⟨body, -, hskip⟩ := Spaced.skipBlanks_string ht rest
  simp only [Reader.optional, runOptional, hskip]
  exact h.map some text rest ht hr

/-! ## Lists -/

theorem runItems_close {isFirst : Bool} {input rest : List Char}
    (h : skipBlanks input = ']' :: rest) : r.runItems isFirst input = .ok ([], rest) := by
  have hnext : nextItem isFirst input = .ok none := by simp [nextItem, h]
  have hclose : closeList input = .ok rest := by simp [closeList, h]
  rw [runItems]
  grind [Except.map]

theorem runItems_item {isFirst : Bool} {input item rest : List Char}
    (h : nextItem isFirst input = .ok (some item)) (hr : r.run item = .ok (a, rest)) :
    r.runItems isFirst input =
      (r.runItems false rest).map fun (as, after) => (a :: as, after) := by
  conv_lhs => rw [runItems]
  grind

theorem nextItem_first {c : Char} {input rest : List Char} (h : skipBlanks input = c :: rest)
    (hc : c ≠ ']') : nextItem true input = .ok (some (c :: rest)) := by
  simp [nextItem, h]

theorem nextItem_more {c : Char} {input item rest : List Char}
    (h : skipBlanks input = ',' :: item) (hi : skipBlanks item = c :: rest) (hc : c ≠ ']') :
    nextItem false input = .ok (some (c :: rest)) := by
  simp [nextItem, h, hi, hc]

/-- The blanks in front of an item are gone before it is read. -/
theorem Takes.run_skipBlanks (h : r.Takes v a) (hv : v.IsJson) {text rest : List Char}
    (ht : Spaced v.tokens text) (hr : Stops rest) :
    ∃ c item, skipBlanks (text ++ rest) = c :: item ∧ c ≠ ']' ∧
      r.run (c :: item) = .ok (a, rest) := by
  obtain ⟨c, token, tokens, htokens, hstart⟩ := hv.exists_tokens_eq
  obtain ⟨hblank, -, hclose, -⟩ := startsValue_ne hstart
  rw [htokens] at ht
  obtain ⟨body, hbody, hskip⟩ := ht.strip hblank rest
  rw [← htokens] at hbody
  exact ⟨c, body ++ rest, hskip, hclose, h (c :: body) rest hbody hr⟩

variable {f : α → Value} {as : List α}

theorem runItems_more (ha : ∀ a ∈ as, (f a).IsJson ∧ r.Takes (f a) a) {text : List Char}
    (ht : Spaced (Frame.list.moreTokens (as.map fun a => (f a).tokens)) text) (rest : List Char) :
    r.runItems false (text ++ rest) = .ok (as, rest) := by
  induction as generalizing text with
  | nil => exact runItems_close (Spaced.skipBlanks_singleton ht (by decide) rest)
  | cons a as ih =>
      obtain ⟨front, back, hfront, hback, hcomma⟩ := Frame.exists_of_more ht rest
      obtain ⟨hjson, htakes⟩ := ha a List.mem_cons_self
      obtain ⟨c, item, hskip, hc, hrun⟩ :=
        htakes.run_skipBlanks hjson hfront (Frame.stops_more hback rest)
      rw [runItems_item (nextItem_more hcomma hskip hc) hrun,
        ih (fun a h => ha a (List.mem_cons_of_mem _ h)) hback]
      rfl

theorem takes_list (ha : ∀ a ∈ as, (f a).IsJson ∧ r.Takes (f a) a) :
    r.list.Takes (.array (as.map f)) as := by
  intro text rest ht hr
  rw [Value.tokens_array, List.map_map] at ht
  obtain ⟨body, hbody, hopen⟩ := ht.skipBlanks_append (by decide) rest
  have hrun : r.list.run (text ++ rest) = r.runItems true (body ++ rest) := by
    simp only [list, runList, hopen, List.nil_append]
  rw [hrun]
  cases as with
  | nil => exact runItems_close (Spaced.skipBlanks_singleton hbody (by decide) rest)
  | cons a as =>
      obtain ⟨front, back, hfront, hback, rfl⟩ := Spaced.exists_of_append hbody
      obtain ⟨hjson, htakes⟩ := ha a List.mem_cons_self
      obtain ⟨c, item, hskip, hc, hrun⟩ :=
        htakes.run_skipBlanks hjson hfront (Frame.stops_more hback rest)
      rw [← List.append_assoc] at hskip
      rw [runItems_item (nextItem_first hskip hc) hrun,
        runItems_more (fun a h => ha a (List.mem_cons_of_mem _ h)) hback]
      rfl

end Reader

/-! ## Records -/

namespace Layout

variable {σ : Type} {l : Layout σ}

/-- The names of the members. -/
def keys (l : Layout σ) : List String :=
  l.members.map (·.key)

theorem member?_isSome (l : Layout σ) (key : String) : (l.member? key).isSome ↔ key ∈ l.keys := by
  simp [member?, keys]

/-- The member changes the record by `f`: a known one as its value says, an
unknown one not at all. -/
def Updates (l : Layout σ) (m : String × Value) (f : σ → σ) : Prop :=
  match l.member? m.1 with
  | some member => member.read.Takes m.2 f
  | none => m.2.IsJson ∧ f = id

theorem Updates.runMember {m : String × Value} {f : σ → σ} (h : l.Updates m f) (s : σ)
    {text rest : List Char} (ht : Spaced ([':'] :: m.2.tokens) text) (hr : Stops rest) :
    l.runMember s m.1 (text ++ rest) = .ok (f s, rest) := by
  obtain ⟨value, hvalue, hcolon⟩ := ht.takeColon rest
  rw [Updates] at h
  rw [Layout.runMember, hcolon]
  dsimp only
  cases hm : l.member? m.1 with
  | none =>
      rw [hm] at h
      obtain ⟨hjson, rfl⟩ := h
      dsimp only
      rw [hjson.skipValue_append hvalue hr]
      rfl
  | some member =>
      rw [hm] at h
      dsimp only
      rw [h value rest hvalue hr]
      rfl

theorem runObject_close {isFirst : Bool} {seen : List String} {s : σ} {input rest : List Char}
    (h : skipBlanks input = '\x7d' :: rest) : l.runObject isFirst seen s input = .ok (s, rest) := by
  have hnext : nextKey isFirst input = .ok (false, rest) := by simp [nextKey, h]
  rw [runObject]
  grind

theorem runObject_member {isFirst : Bool} {seen : List String} {s s' : σ} {key : String}
    {input chars rest after : List Char} (hk : nextKey isFirst input = .ok (true, chars))
    (hc : readChars chars = .ok (key.toList, rest)) (hseen : key ∉ seen)
    (hm : l.runMember s key rest = .ok (s', after)) :
    l.runObject isFirst seen s input =
      l.runObject false (if key ∈ l.keys then key :: seen else seen) s' after := by
  have hknown := l.member?_isSome key
  conv_lhs => rw [runObject]
  grind [String.ofList_toList]

/-- One member of an object is read, wherever it stands. -/
theorem Updates.runObject {m : String × Value} {f : σ → σ} (h : l.Updates m f) {isFirst : Bool}
    {seen : List String} (hseen : m.1 ∉ seen) {s : σ} {text input rest : List Char}
    (ht : Spaced (memberTokens m.1 m.2.tokens) text) (hr : Stops rest)
    (hk : ∀ chars, skipBlanks (text ++ rest) = '"' :: chars →
      nextKey isFirst input = .ok (true, chars)) :
    l.runObject isFirst seen s input =
      l.runObject false (if m.1 ∈ l.keys then m.1 :: seen else seen) (f s) rest := by
  obtain ⟨colon, hcolon, hskip⟩ := Spaced.skipBlanks_string ht rest
  exact runObject_member (hk _ hskip) (readChars_print _ _) hseen (h.runMember s hcolon hr)

/-- No member was seen before, and no known one comes twice. -/
def Fresh (l : Layout σ) (seen : List String) (ms : List (String × Value)) : Prop :=
  (∀ m ∈ ms, m.1 ∉ seen) ∧ ((ms.filter fun m => m.1 ∈ l.keys).map (·.1)).Nodup

theorem Fresh.tail {seen : List String} {m : String × Value} {ms : List (String × Value)}
    (h : l.Fresh seen (m :: ms)) :
    l.Fresh (if m.1 ∈ l.keys then m.1 :: seen else seen) ms := by
  obtain ⟨hseen, hn⟩ := h
  have hseen' := fun n hn => hseen n (List.mem_cons_of_mem m hn)
  by_cases hm : m.1 ∈ l.keys
  · rw [List.filter_cons_of_pos (by simpa using hm), List.map_cons, List.nodup_cons] at hn
    refine ⟨fun n hmem => ?_, hn.2⟩
    rw [if_pos hm, List.mem_cons, not_or]
    refine ⟨fun heq => hn.1 (heq ▸ List.mem_map_of_mem ?_), hseen' n hmem⟩
    exact List.mem_filter.mpr ⟨hmem, by simpa [heq] using hm⟩
  · rw [List.filter_cons_of_neg (by simpa using hm)] at hn
    rw [if_neg hm]
    exact ⟨hseen', hn⟩

variable {ms : List (String × Value)} {update : String → σ → σ}

theorem runObject_more (hu : ∀ m ∈ ms, l.Updates m (update m.1)) {seen : List String}
    (hf : l.Fresh seen ms) (s : σ) {text : List Char}
    (ht : Spaced (Frame.object.moreTokens (ms.map fun m => memberTokens m.1 m.2.tokens)) text)
    (rest : List Char) :
    l.runObject false seen s (text ++ rest) = .ok (ms.foldl (fun s m => update m.1 s) s, rest) := by
  induction ms generalizing seen s text with
  | nil => exact runObject_close (Spaced.skipBlanks_singleton ht (by decide) rest)
  | cons m ms ih =>
      obtain ⟨front, back, hfront, hback, hcomma⟩ := Frame.exists_of_more ht rest
      have hkey : ∀ chars, skipBlanks (front ++ (back ++ rest)) = '"' :: chars →
          nextKey false (text ++ rest) = .ok (true, chars) := by
        intro chars hchars
        simp [nextKey, hcomma, hchars]
      rw [(hu m List.mem_cons_self).runObject (hf.1 m List.mem_cons_self) hfront
        (Frame.stops_more hback rest) hkey]
      exact ih (fun m h => hu m (List.mem_cons_of_mem _ h)) hf.tail _ hback

/-- The record is the initial one with the updates of the members in turn. -/
theorem takes_object (update : String → σ → σ) (hu : ∀ m ∈ ms, l.Updates m (update m.1))
    (hf : l.Fresh [] ms) :
    l.reader.Takes (.object ms) (ms.foldl (fun s m => update m.1 s) l.initial) := by
  intro text rest ht hr
  rw [Value.tokens_object] at ht
  obtain ⟨body, hbody, hopen⟩ := ht.skipBlanks_append (by decide) rest
  have hrun : l.reader.run (text ++ rest) = l.runObject true [] l.initial (body ++ rest) := by
    simp [reader, run, hopen]
  rw [hrun]
  cases ms with
  | nil => exact runObject_close (Spaced.skipBlanks_singleton hbody (by decide) rest)
  | cons m ms =>
      obtain ⟨front, back, hfront, hback, rfl⟩ := Spaced.exists_of_append hbody
      have hkey : ∀ chars, skipBlanks (front ++ (back ++ rest)) = '"' :: chars →
          nextKey true (front ++ back ++ rest) = .ok (true, chars) := by
        intro chars hchars
        simp [nextKey, hchars]
      rw [(hu m List.mem_cons_self).runObject (hf.1 m List.mem_cons_self) hfront
        (Frame.stops_more hback rest) hkey]
      exact runObject_more (fun m h => hu m (List.mem_cons_of_mem _ h)) hf.tail _ hback rest

end Layout

/-- A whole text is one value and blanks behind it. -/
theorem readAll_of_spells {α : Type} {r : Reader α} {v : Value} {a : α} (h : r.Takes v a)
    {text : String} (ht : v.Spells text) : readAll r text = .ok a := by
  obtain ⟨-, body, blanks, hbody, hblanks, htext⟩ := ht
  have hrun : r.run text.toList = .ok (a, blanks) := by
    rw [htext]
    exact h body blanks hbody (stops_of_blank hblanks)
  have hend : skipBlanks blanks = [] := List.dropWhile_eq_nil_iff.mpr hblanks
  simp only [readAll, hrun, hend, List.isEmpty_nil, if_true]

end ProtoSchema.Json
