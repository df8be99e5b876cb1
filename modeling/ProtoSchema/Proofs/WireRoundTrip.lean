import ProtoSchema.Plugin
import ProtoSchema.Proofs.Outcome

/-!
# Requests are read back as they were written

What is written is a run of fields, and the reader takes them off one by one.
So each statement is about a field with anything behind it: the reader does
what the field says and goes on with the rest. There are two such steps. A
field that the message knows is put into the value, and a field that it does
not know is stepped over, whatever it holds. `Scattered` describes the inputs
that are made of both kinds: the fields of a message in their order, with
unknown ones before, between and after them. Such an input is read as the
fields of the message alone would be.

An unknown field need not have been written by `writeKey` and `writeVarint`.
The format leaves some freedom to writers, since an integer may be filled up
with groups of zeros, and `IsVarint` and `IsField` allow everything that it
allows.

A length travels in at most ten groups of seven bits, so it has to be below
2^64. No memory holds more bytes than that, but a list may.
-/

namespace ProtoSchema

/-- Elements that go to the end of one field of a record, one by one, go there
as a list. -/
theorem foldl_extend {σ α : Type} (get : σ → List α) (set : σ → List α → σ)
    (hget : ∀ s l, get (set s l) = l) (hset : ∀ s l l', set (set s l) l' = set s l')
    (hself : ∀ s, set s (get s) = s) (l : List α) (s : σ) :
    l.foldl (fun s a => set s (get s ++ [a])) s = set s (get s ++ l) := by
  induction l generalizing s with
  | nil => rw [List.foldl_nil, List.append_nil, hself]
  | cons a l ih => rw [List.foldl_cons, ih, hget, hset, List.append_assoc, List.singleton_append]

end ProtoSchema

namespace ProtoSchema.Wire

/-! ## Integers -/

/-- The bytes of an integer, where `place` groups of it come before them: seven
bits in each byte, the lowest first, and a high bit on all but the last. There
are at most ten groups, and the tenth has a single bit. -/
inductive IsVarint : Nat → Bytes → Nat → Prop
  | last {place : Nat} {b : UInt8} (hb : b < 128) (hfits : place = 9 → b ≤ 1) :
      IsVarint place [b] b.toNat
  | more {place : Nat} {b : UInt8} {bs : Bytes} {n : Nat} (hb : 128 ≤ b) (hplace : place < 9)
      (h : IsVarint (place + 1) bs n) : IsVarint place (b :: bs) (b.toNat - 128 + 128 * n)

theorem readGroups_of_isVarint {place : Nat} {bs : Bytes} {n : Nat} (h : IsVarint place bs n)
    (rest : Bytes) : readGroups place (bs ++ rest) = some (n, rest) := by
  induction h with
  | @last place b hb hfits =>
      have hlast : ¬ (place = 9 ∧ 1 < b) := fun h => UInt8.not_lt.mpr (hfits h.1) h.2
      rw [List.singleton_append, readGroups, if_pos hb, if_neg hlast]
  | more hb hplace _ ih =>
      rw [List.cons_append, readGroups, if_neg (UInt8.not_lt.mpr hb),
        if_neg (Nat.not_le.mpr hplace), ih]
      rfl

/-- How many numbers can be told apart by this many more groups and the tenth
one, which has a single bit. -/
def room : Nat → Nat
  | 0 => 2
  | groups + 1 => 128 * room groups

/-- The numbers of 64 bits are below this one. -/
def wordLimit : Nat := 0x10000000000000000

theorem room_nine : room 9 = wordLimit := by
  decide

/-- The shortest spelling of a number is one. -/
theorem isVarint_writeVarint {n groups place : Nat} (hplace : place + groups = 9)
    (h : n < room groups) : IsVarint place (writeVarint n) n := by
  induction n using writeVarint.induct generalizing groups place with
  | case1 n hn =>
      have hbyte : n.toUInt8.toNat = n := by
        rw [Nat.toUInt8, UInt8.toNat_ofNat']
        omega
      have hsmall : n.toUInt8 < 128 := by
        rw [UInt8.lt_iff_toNat_lt, hbyte]
        exact hn
      have hlast : place = 9 → n.toUInt8 ≤ 1 := by
        rintro rfl
        obtain rfl : groups = 0 := by omega
        rw [UInt8.le_iff_toNat_le, hbyte]
        exact Nat.le_of_lt_succ h
      have hvarint := IsVarint.last hsmall hlast
      rw [hbyte] at hvarint
      rw [writeVarint, if_pos hn]
      exact hvarint
  | case2 n hn ih =>
      cases groups with
      | zero =>
          rw [room] at h
          omega
      | succ groups =>
          have hbyte : (n % 128 + 128).toUInt8.toNat = n % 128 + 128 := by
            rw [Nat.toUInt8, UInt8.toNat_ofNat']
            omega
          have hlarge : 128 ≤ (n % 128 + 128).toUInt8 := by
            rw [UInt8.le_iff_toNat_le, hbyte]
            exact Nat.le_add_left 128 _
          have hrest : n / 128 < room groups := Nat.div_lt_of_lt_mul h
          have hmore : place < 9 := by omega
          have hvarint := IsVarint.more hlarge hmore (ih (by omega) hrest)
          rw [hbyte, Nat.add_sub_cancel, Nat.mod_add_div] at hvarint
          rw [writeVarint, if_neg hn]
          exact hvarint

theorem isVarint_of_lt {n : Nat} (h : n < wordLimit) : IsVarint 0 (writeVarint n) n :=
  isVarint_writeVarint (Nat.zero_add 9) (room_nine ▸ h)

/-! ## Fields -/

theorem WireType.ofNumber?_number (t : WireType) : ofNumber? t.number = some t := by
  cases t <;> rfl

theorem WireType.number_lt (t : WireType) : t.number < 8 := by
  cases t <;> decide

/-- The numbers of fields have 29 bits and are not zero. -/
def IsTag (number : Nat) : Prop :=
  number ≠ 0 ∧ number < 0x20000000

instance (number : Nat) : Decidable (IsTag number) :=
  inferInstanceAs (Decidable (_ ∧ _))

/-- The bytes of a key. -/
def IsKey (key : Key) (bs : Bytes) : Prop :=
  IsTag key.number ∧ IsVarint 0 bs (8 * key.number + key.type.number)

theorem isKey_writeKey {key : Key} (h : IsTag key.number) : IsKey key (writeKey key) := by
  refine ⟨h, isVarint_of_lt ?_⟩
  have htype := key.type.number_lt
  have hsize := h.2
  rw [wordLimit]
  omega

theorem readKey_of_isKey {key : Key} {bs : Bytes} (h : IsKey key bs) (rest : Bytes) :
    readKey (bs ++ rest) = .ok (key, rest) := by
  obtain ⟨⟨hpos, hsize⟩, hbytes⟩ := h
  have htype := key.type.number_lt
  have hlow : (8 * key.number + key.type.number) % 8 = key.type.number := by omega
  have hhigh : (8 * key.number + key.type.number) / 8 = key.number := by omega
  have hfits : ¬ 0x100000000 ≤ 8 * key.number + key.type.number := by omega
  rw [readKey, readVarint, readGroups_of_isVarint hbytes]
  simp only [hlow, hhigh, WireType.ofNumber?_number, if_neg hfits, if_neg hpos]

/-- The bytes of a value that is no group. -/
inductive IsValue : WireType → Bytes → Prop
  | varint {bs : Bytes} {n : Nat} (h : IsVarint 0 bs n) : IsValue .varint bs
  | fixed64 {bs : Bytes} (h : bs.length = 8) : IsValue .fixed64 bs
  | fixed32 {bs : Bytes} (h : bs.length = 4) : IsValue .fixed32 bs
  | bytes {bs payload : Bytes} (h : IsVarint 0 bs payload.length) :
      IsValue .bytes (bs ++ payload)

theorem readPayload_of_isVarint {bs payload : Bytes} (h : IsVarint 0 bs payload.length)
    (rest : Bytes) : readPayload (bs ++ (payload ++ rest)) = .ok (payload, rest) := by
  have henough : ¬ (payload ++ rest).length < payload.length := by
    rw [List.length_append]
    omega
  rw [readPayload, readVarint, readGroups_of_isVarint h]
  simp only [if_neg henough, List.take_left, List.drop_left]

theorem dropBytes_append (bs rest : Bytes) : dropBytes bs.length (bs ++ rest) = .ok rest := by
  have henough : ¬ (bs ++ rest).length < bs.length := by
    rw [List.length_append]
    omega
  rw [dropBytes, if_neg henough, List.drop_left]

theorem skipValue_of_isValue {key : Key} {bs : Bytes} (h : IsValue key.type bs) (rest : Bytes) :
    skipValue key (bs ++ rest) = .ok rest := by
  obtain ⟨number, type⟩ := key
  cases h with
  | varint h =>
      show skipPlain .varint (bs ++ rest) = .ok rest
      rw [skipPlain, readVarint, readGroups_of_isVarint h]
  | fixed64 h =>
      show dropBytes 8 (bs ++ rest) = .ok rest
      rw [← h, dropBytes_append]
  | fixed32 h =>
      show dropBytes 4 (bs ++ rest) = .ok rest
      rw [← h, dropBytes_append]
  | @bytes bs payload h =>
      show (readPayload (bs ++ payload ++ rest)).map (·.2) = .ok rest
      rw [List.append_assoc, readPayload_of_isVarint h]
      rfl

/-- The bytes of a field with the given number that is no group: a key and a
value of the shape that the key announces. -/
inductive IsField (number : Nat) : Bytes → Prop
  | mk {type : WireType} {key value : Bytes} (hkey : IsKey { number, type } key)
      (hvalue : IsValue type value) : IsField number (key ++ value)

theorem writePayload_append (number : Nat) (payload rest : Bytes) :
    writePayload number payload ++ rest =
      writeKey { number, type := .bytes } ++ (writeVarint payload.length ++ (payload ++ rest)) := by
  rw [writePayload, List.append_assoc, List.append_assoc]

/-! ## Reading field by field -/

theorem not_isEmpty_of_readKey {input rest : Bytes} {key : Key}
    (h : readKey input = .ok (key, rest)) : ¬ input.isEmpty := by
  intro hempty
  rw [List.isEmpty_iff.mp hempty] at h
  cases h

/-- The fields of a message, each a number and a payload, with fields of other
numbers than its `own` ones before, between or after them. -/
inductive Scattered (own : List Nat) : List (Nat × Bytes) → Bytes → Prop
  | done : Scattered own [] []
  | field {number : Nat} {payload : Bytes} {fields : List (Nat × Bytes)} {input : Bytes}
      (h : Scattered own fields input) :
      Scattered own ((number, payload) :: fields) (writePayload number payload ++ input)
  | unknown {number : Nat} {extra : Bytes} {fields : List (Nat × Bytes)} {input : Bytes}
      (hnumber : number ∉ own) (hextra : IsField number extra) (h : Scattered own fields input) :
      Scattered own fields (extra ++ input)

/-- The payloads are no longer than what a length can say. Everything in a
memory of 64-bit addresses is so. -/
def Fits (fields : List (Nat × Bytes)) : Prop :=
  ∀ f ∈ fields, f.2.length < wordLimit

instance (fields : List (Nat × Bytes)) : Decidable (Fits fields) :=
  inferInstanceAs (Decidable (∀ f ∈ fields, _))

/-- A payload is a part of what is written. -/
theorem fits_of_length {fields : List (Nat × Bytes)}
    (h : (fields.flatMap fun f => writePayload f.1 f.2).length < wordLimit) : Fits fields := by
  intro f hf
  have hmem := List.mem_map_of_mem (f := fun f => writePayload f.1 f.2) hf
  calc f.2.length
      ≤ (writePayload f.1 f.2).length := by
        rw [writePayload, List.length_append]
        exact Nat.le_add_left _ _
    _ ≤ (fields.flatMap fun f => writePayload f.1 f.2).length := by
        rw [List.flatMap_def]
        exact (List.sublist_flatten_of_mem hmem).length_le
    _ < wordLimit := h

/-- Fields alone. -/
theorem scattered_flatMap (own : List Nat) (fields : List (Nat × Bytes)) :
    Scattered own fields (fields.flatMap fun f => writePayload f.1 f.2) := by
  induction fields with
  | nil => exact .done
  | cons f fields ih => exact .field ih

namespace Layout

variable {σ : Type} {l : Layout σ}

theorem decode_nil (value : σ) : l.decode value [] = .ok value := by
  rw [decode]
  rfl

/-- The step of the reader at a field that it knows. -/
theorem decode_writePayload {number : Nat} {field : String} (hfield : l.field? number = some field)
    (htag : IsTag number) {payload : Bytes} (hlength : payload.length < wordLimit)
    {value value' : σ} (hput : l.put value number payload = .ok value') (rest : Bytes) :
    l.decode value (writePayload number payload ++ rest) = l.decode value' rest := by
  have hwritten : IsKey { number, type := .bytes } (writeKey { number, type := .bytes }) :=
    isKey_writeKey htag
  have hkey := readKey_of_isKey hwritten (writeVarint payload.length ++ (payload ++ rest))
  have hpayload := readPayload_of_isVarint (isVarint_of_lt hlength) rest
  rw [← writePayload_append] at hkey
  rw [decode, if_neg (not_isEmpty_of_readKey hkey)]
  split
  next fault h =>
    rw [hkey] at h
    cases h
  next key rest' h =>
    rw [hkey] at h
    cases h
    simp only [hfield, if_true]
    split
    next fault h =>
      rw [hpayload] at h
      cases h
    next payload' rest' h =>
      rw [hpayload] at h
      cases h
      simp only [hput]

/-- The step of the reader at a field that it does not know. -/
theorem decode_unknown {number : Nat} (hfield : l.field? number = none) {extra : Bytes}
    (hextra : IsField number extra) (value : σ) (rest : Bytes) :
    l.decode value (extra ++ rest) = l.decode value rest := by
  obtain @⟨type, key, bytes, hkey, hvalue⟩ := hextra
  have hread := readKey_of_isKey hkey (bytes ++ rest)
  have hskip : skipValue { number, type } (bytes ++ rest) = .ok rest :=
    skipValue_of_isValue hvalue rest
  rw [← List.append_assoc] at hread
  rw [decode, if_neg (not_isEmpty_of_readKey hread)]
  split
  next fault h =>
    rw [hread] at h
    cases h
  next key' rest' h =>
    rw [hread] at h
    cases h
    simp only [hfield]
    split
    next fault h =>
      rw [hskip] at h
      cases h
    next rest' h =>
      rw [hskip] at h
      cases h
      rfl

/-- A run of such steps: the reader puts one field after another into the
value, and nothing else matters. -/
theorem decode_scattered {own : List Nat} (hown : ∀ n, n ∉ own → l.field? n = none)
    {fields : List (Nat × Bytes)} {input : Bytes} (h : Scattered own fields input)
    (hknown : ∀ f ∈ fields, (l.field? f.1).isSome ∧ IsTag f.1) (hfits : Fits fields)
    {value value' : σ}
    (hput : fields.foldlM (fun v f => l.put v f.1 f.2) value = .ok value') :
    l.decode value input = .ok value' := by
  induction h generalizing value with
  | done =>
      rw [List.foldlM_nil] at hput
      rw [decode_nil, Except.ok.inj hput]
  | field _ ih =>
      obtain ⟨hsome, htag⟩ := hknown _ List.mem_cons_self
      obtain ⟨name, hname⟩ := Option.isSome_iff_exists.mp hsome
      rw [List.foldlM_cons] at hput
      obtain ⟨next, hnext, hrest⟩ := bind_eq_ok.mp hput
      rw [decode_writePayload hname htag (hfits _ List.mem_cons_self) hnext]
      exact ih (fun f hf => hknown f (List.mem_cons_of_mem _ hf))
        (fun f hf => hfits f (List.mem_cons_of_mem _ hf)) hrest
  | unknown hnumber hextra _ ih =>
      rw [decode_unknown (hown _ hnumber) hextra]
      exact ih hknown hfits hput

end Layout

/-! ## Texts -/

theorem toList_loop (bs : ByteArray) (i : Nat) (read : List UInt8) :
    ByteArray.toList.loop bs i read = read.reverse ++ bs.data.toList.drop i := by
  induction i, read using ByteArray.toList.loop.induct bs with
  | case1 i read hi ih =>
      have hbound : i < bs.data.toList.length := hi
      have hget : bs.get! i = bs.data.toList[i] := getElem!_pos bs.data i hi
      rw [ByteArray.toList.loop, if_pos hi, ih, List.reverse_cons, List.append_assoc, hget,
        List.drop_eq_getElem_cons hbound]
      rfl
  | case2 i read hi =>
      have hbound : bs.data.toList.length ≤ i := Nat.not_lt.mp hi
      rw [ByteArray.toList.loop, if_neg hi, List.drop_eq_nil_of_le hbound, List.append_nil]

theorem readText_writeText (s : String) : readText (writeText s) = .ok s := by
  have hbytes : (⟨(writeText s).toArray⟩ : ByteArray) = s.toUTF8 := by
    rw [writeText, ByteArray.toList, toList_loop]
    rfl
  have htext : String.fromUTF8? s.toUTF8 = some s := dif_pos s.isValidUTF8
  rw [readText, hbytes, htext]

end ProtoSchema.Wire

/-! ## Requests -/

namespace ProtoSchema.Plugin.Request

open ProtoSchema.Wire

/-- The fields of a request, in the order in which they are written. -/
def fields (r : Request) : List (Nat × Bytes) :=
  r.filesToGenerate.map (fun s => (1, writeText s)) ++
  (r.parameter.toList.map (fun s => (2, writeText s)) ++
  r.protoFiles.map (fun file => (15, file)))

theorem encode_eq_flatMap (r : Request) :
    r.encode = r.fields.flatMap fun f => writePayload f.1 f.2 := by
  have hparameter : writeTextField 2 r.parameter =
      r.parameter.toList.flatMap fun s => writePayload 2 (writeText s) := by
    cases r.parameter with
    | none => rfl
    | some text =>
        rw [Option.toList_some, List.flatMap_singleton]
        rfl
  rw [encode, fields, List.flatMap_append, List.flatMap_append, List.flatMap_map,
    List.flatMap_map, List.flatMap_map, hparameter, List.append_assoc]

def addName (r : Request) (name : String) : Request :=
  { r with filesToGenerate := r.filesToGenerate ++ [name] }

def addFile (r : Request) (file : Bytes) : Request :=
  { r with protoFiles := r.protoFiles ++ [file] }

theorem put_name (r : Request) (name : String) :
    r.put 1 (writeText name) = .ok (r.addName name) := by
  show (readText (writeText name) >>= fun s => .ok (r.addName s)) = .ok (r.addName name)
  rw [readText_writeText]
  rfl

theorem put_parameter (r : Request) (text : String) :
    r.put 2 (writeText text) = .ok { r with parameter := some text } := by
  show (readText (writeText text) >>= fun s => .ok { r with parameter := some s }) = _
  rw [readText_writeText]
  rfl

theorem foldlM_names (names : List String) (r : Request) :
    (names.map fun s => (1, writeText s)).foldlM (fun (r : Request) f => r.put f.1 f.2) r =
      .ok { r with filesToGenerate := r.filesToGenerate ++ names } := by
  have hfold : names.foldl addName r = { r with filesToGenerate := r.filesToGenerate ++ names } :=
    foldl_extend filesToGenerate (fun r names => { r with filesToGenerate := names })
      (fun _ _ => rfl) (fun _ _ _ => rfl) (fun _ => rfl) names r
  rw [List.foldlM_map, ← hfold]
  simp only [put_name]
  exact List.foldlM_pure

theorem foldlM_files (files : List Bytes) (r : Request) :
    (files.map fun file => (15, file)).foldlM (fun (r : Request) f => r.put f.1 f.2) r =
      .ok { r with protoFiles := r.protoFiles ++ files } := by
  have hfold : files.foldl addFile r = { r with protoFiles := r.protoFiles ++ files } :=
    foldl_extend protoFiles (fun r files => { r with protoFiles := files })
      (fun _ _ => rfl) (fun _ _ _ => rfl) (fun _ => rfl) files r
  rw [List.foldlM_map, ← hfold]
  exact List.foldlM_pure

/-- The fields of a request are put together to the request. -/
theorem foldlM_fields (r : Request) :
    r.fields.foldlM (fun (r : Request) f => r.put f.1 f.2) {} = .ok r := by
  obtain ⟨names, parameter, files⟩ := r
  have hparameter :
      (parameter.toList.map fun s => (2, writeText s)).foldlM
        (fun (r : Request) f => r.put f.1 f.2) { filesToGenerate := names } =
      .ok { filesToGenerate := names, parameter } := by
    cases parameter with
    | none => rfl
    | some text =>
        rw [Option.toList_some, List.map_singleton, List.foldlM_cons, put_parameter]
        rfl
  rw [fields, foldlM_append_of_ok (foldlM_names names {}), List.nil_append,
    foldlM_append_of_ok hparameter, foldlM_files]
  rfl

theorem field?_of_notMem {n : Nat} (h : n ∉ [1, 2, 15]) : layout.field? n = none := by
  simp only [List.mem_cons, List.not_mem_nil, or_false, not_or] at h
  obtain ⟨hone, htwo, hfifteen⟩ := h
  show fieldName? n = none
  rw [fieldName?.eq_def]
  split
  · exact absurd rfl hone
  · exact absurd rfl htwo
  · exact absurd rfl hfifteen
  · rfl

theorem known_fields (r : Request) :
    ∀ f ∈ r.fields, (layout.field? f.1).isSome ∧ IsTag f.1 := by
  simp only [fields, List.forall_mem_append, List.forall_mem_map]
  exact ⟨fun _ _ => by decide, fun _ _ => by decide, fun _ _ => by decide⟩

theorem decode_of_scattered {r : Request} (hfits : Fits r.fields) {input : Bytes}
    (h : Scattered [1, 2, 15] r.fields input) : decode input = .ok r :=
  Layout.decode_scattered (fun _ => field?_of_notMem) h r.known_fields hfits r.foldlM_fields

/-- A request that fits into memory is read back as it was written. -/
theorem decode_encode {r : Request} (h : r.encode.length < wordLimit) :
    decode r.encode = .ok r := by
  rw [encode_eq_flatMap] at h ⊢
  exact decode_of_scattered (fits_of_length h) (scattered_flatMap _ _)

end ProtoSchema.Plugin.Request

/-! ## Descriptor sets -/

namespace ProtoSchema.FileSet

open ProtoSchema.Wire

/-- The fields of a set. -/
def fields (s : FileSet) : List (Nat × Bytes) :=
  s.files.map fun file => (1, file)

theorem encode_eq_flatMap (s : FileSet) :
    s.encode = s.fields.flatMap fun f => writePayload f.1 f.2 := by
  rw [encode, fields, List.flatMap_map]

theorem foldlM_fields (s : FileSet) :
    s.fields.foldlM (fun s f => layout.put s f.1 f.2) {} = .ok s := by
  have hfold : s.files.foldl (fun (s : FileSet) file => { files := s.files ++ [file] }) {} = s :=
    foldl_extend files (fun _ files => { files }) (fun _ _ => rfl) (fun _ _ _ => rfl)
      (fun _ => rfl) s.files {}
  rw [fields, List.foldlM_map]
  exact List.foldlM_pure.trans (congrArg Except.ok hfold)

theorem decode_of_scattered {s : FileSet} (hfits : Fits s.fields) {input : Bytes}
    (h : Scattered [1] s.fields input) : decode input = .ok s := by
  refine Layout.decode_scattered (fun n hn => ?_) h ?_ hfits s.foldlM_fields
  · exact if_neg fun heq => hn (List.mem_singleton.mpr heq)
  · simp only [fields, List.forall_mem_map]
    exact fun _ _ => by decide

end ProtoSchema.FileSet

namespace ProtoSchema.Plugin

open ProtoSchema.Wire

/-- Requests and descriptor sets that fit into memory are read back as they
were written, and fields with other numbers than those of the message make no
difference, wherever they stand. -/
theorem decode_of_scattered_fields :
    (∀ r : Request, Fits r.fields →
      Request.decode r.encode = .ok r ∧
      Scattered [1, 2, 15] r.fields r.encode ∧
      ∀ input, Scattered [1, 2, 15] r.fields input → Request.decode input = .ok r) ∧
    ∀ s : FileSet, Fits s.fields →
      FileSet.decode s.encode = .ok s ∧
      Scattered [1] s.fields s.encode ∧
      ∀ input, Scattered [1] s.fields input → FileSet.decode input = .ok s := by
  constructor
  · intro r hfits
    have hencode : Scattered [1, 2, 15] r.fields r.encode := by
      rw [Request.encode_eq_flatMap]
      exact scattered_flatMap _ _
    exact ⟨Request.decode_of_scattered hfits hencode, hencode,
      fun _ => Request.decode_of_scattered hfits⟩
  · intro s hfits
    have hencode : Scattered [1] s.fields s.encode := by
      rw [FileSet.encode_eq_flatMap]
      exact scattered_flatMap _ _
    exact ⟨FileSet.decode_of_scattered hfits hencode, hencode,
      fun _ => FileSet.decode_of_scattered hfits⟩

end ProtoSchema.Plugin

/-! ## Moss

A request with an empty parameter and a file whose length takes two bytes. The
compiler has added its version in front, and other compilers may add anything
else in between. -/

namespace ProtoSchema.Moss

open ProtoSchema.Plugin
open ProtoSchema.Wire

def file : Bytes :=
  List.replicate 130 7

def request : Request :=
  { filesToGenerate := ["moss.proto"], parameter := some "", protoFiles := [file] }

/-- A message of two bytes with the number 3. Its length takes two bytes as
well, although one would do. -/
def version : Bytes :=
  [26] ++ ([130, 0] ++ [8, 4])

/-- The integer 255 with the number 4. -/
def integer : Bytes :=
  [32] ++ [255, 1]

/-- Sixty-four bits with the number 5. -/
def long : Bytes :=
  [41] ++ [1, 2, 3, 4, 5, 6, 7, 8]

/-- Thirty-two bits with the number 6. -/
def short : Bytes :=
  [53] ++ [1, 2, 3, 4]

def input : Bytes :=
  version ++ (writePayload 1 (writeText "moss.proto") ++ (integer ++
  (writePayload 2 (writeText "") ++ (long ++ (writePayload 15 file ++ (short ++ []))))))

theorem isField_version : IsField 3 version :=
  .mk ⟨by decide, .last (by decide) (by decide)⟩
    (.bytes (.more (by decide) (by decide) (.last (b := 0) (by decide) (by decide))))

theorem isField_integer : IsField 4 integer :=
  .mk ⟨by decide, .last (by decide) (by decide)⟩
    (.varint (.more (by decide) (by decide) (.last (by decide) (by decide))))

theorem isField_long : IsField 5 long :=
  .mk ⟨by decide, .last (by decide) (by decide)⟩ (.fixed64 rfl)

theorem isField_short : IsField 6 short :=
  .mk ⟨by decide, .last (by decide) (by decide)⟩ (.fixed32 rfl)

/-- The additions make no difference. -/
theorem decode_of_scattered_fields_input :
    Fits request.fields ∧ Scattered [1, 2, 15] request.fields input ∧
      Request.decode input = .ok request := by
  have hfits : Fits request.fields := by decide +kernel
  have hinput : Scattered [1, 2, 15] request.fields input :=
    .unknown (by decide) isField_version <| .field <|
    .unknown (by decide) isField_integer <| .field <|
    .unknown (by decide) isField_long <| .field <|
    .unknown (by decide) isField_short .done
  obtain ⟨-, -, hdecode⟩ := decode_of_scattered_fields.1 request hfits
  exact ⟨hfits, hinput, hdecode input hinput⟩

end ProtoSchema.Moss
