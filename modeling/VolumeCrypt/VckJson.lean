import VolumeCrypt.Base64Decode

/-!
# The configuration file of the loader

The app serialises `vck.json` with `json.Marshal` (`sample/app/cmd/os_volume_encrypt.go`)
and the loader reads it with a scanner of its own (`sample/common/src/config.rs`). The
scanner works on byte positions and takes every byte of a raw run for a character.
-/
namespace VckJson

open ByteString VckTypes Utf8Text Base64 Base64Decode

/-! ## The scanner -/

def isWs (c : UInt8) : Bool := c = byte ' ' || c = byte '\t' || c = byte '\r' || c = byte '\n'

theorem lt_of_getElem?_eq_some {bytes : Bytes} {i : Nat} {c : UInt8} (h : bytes[i]? = some c) : i < bytes.length :=
  (List.getElem?_eq_some_iff.mp h).1

def skipWs (bytes : Bytes) (i : Nat) : Nat :=
  match _h : bytes[i]? with
  | none => i
  | some c => if isWs c then skipWs bytes (i + 1) else i
termination_by bytes.length - i
decreasing_by
  have := lt_of_getElem?_eq_some _h
  omega

/-- `char::to_digit(16)` of a byte. -/
def toDigit16 (h : UInt8) : Option Nat :=
  if byte '0' ≤ h ∧ h ≤ byte '9' then some (h.toNat - 48)
  else if byte 'a' ≤ h ∧ h ≤ byte 'f' then some (h.toNat - 97 + 10)
  else if byte 'A' ≤ h ∧ h ≤ byte 'F' then some (h.toNat - 65 + 10)
  else none

/-- The loop over the digits of a `\u` escape. -/
def hexLoop (cp : Nat) : Bytes → VckResult Nat
  | [] => .ok cp
  | h :: hex =>
    match toDigit16 h with
    | none => .error (.invalidData "vck.json: bad \\u escape")
    | some d => hexLoop (cp * 16 + d) hex

/-- `char::from_u32`. -/
def charFromU32 (cp : Nat) : Option Char := if cp.isValidChar then some (Char.ofNat cp) else none

/-- The escapes of one letter. -/
def shortEscape (e : UInt8) : Option Char :=
  if e = byte '"' then some '"'
  else if e = byte '\\' then some '\\'
  else if e = byte '/' then some '/'
  else if e = byte 'n' then some '\n'
  else if e = byte 'r' then some '\r'
  else if e = byte 't' then some '\t'
  else if e = byte 'b' then some '\x08'
  else if e = byte 'f' then some '\x0c'
  else none

/-- The escape whose letter is at `i`: the character to push, and the position of the last byte. -/
def escape (bytes : Bytes) (i : Nat) : VckResult (Char × Nat) :=
  match bytes[i]? with
  | none => .error (.invalidData "vck.json: bad escape")
  | some e =>
    match shortEscape e with
    | some c => .ok (c, i)
    | none =>
      if e = byte 'u' then
        -- One code unit; surrogates are not paired.
        if i + 5 ≤ bytes.length then
          match hexLoop 0 (slice bytes (i + 1) 4) with
          | .error e => .error e
          | .ok cp =>
            match charFromU32 cp with
            | none => .error (.invalidData "vck.json: bad code point")
            | some c => .ok (c, i + 4)
        else .error (.invalidData "vck.json: truncated \\u escape")
      else .error (.invalidData "vck.json: bad escape")

theorem le_of_escape {bytes : Bytes} {i j : Nat} {c : Char} (h : escape bytes i = .ok (c, j)) : i ≤ j := by
  unfold escape at h
  split at h
  · cases h
  · split at h
    · cases h
      exact Nat.le_refl i
    · repeat' split at h
      all_goals cases h
      omega

/-- The loop of `parse_string`. -/
def stringLoop (bytes : Bytes) (i : Nat) (out : Text) : VckResult (Text × Nat) :=
  match _h : bytes[i]? with
  | none => .error (.invalidData "vck.json: unterminated string")
  | some c =>
    if c = byte '"' then .ok (out, i + 1)
    else if c = byte '\\' then
      match _he : escape bytes (i + 1) with
      | .error e => .error e
      | .ok (ch, j) => stringLoop bytes (j + 1) (out ++ [ch])
    else stringLoop bytes (i + 1) (out ++ [Char.ofNat c.toNat])
termination_by bytes.length - i
decreasing_by
  · have := lt_of_getElem?_eq_some _h
    have := le_of_escape _he
    omega
  · have := lt_of_getElem?_eq_some _h
    omega

/-- A string that starts at the quote at `start`, and the position behind it. -/
def parseString (bytes : Bytes) (start : Nat) : VckResult (Text × Nat) := stringLoop bytes (start + 1) []

theorem le_skipWs (bytes : Bytes) (i : Nat) : i ≤ skipWs bytes i := by
  fun_induction skipWs bytes i with
  | case1 i h => exact Nat.le_refl i
  | case2 i c h hc ih => omega
  | case3 i c h hc => exact Nat.le_refl i

theorem lt_of_stringLoop {bytes : Bytes} {i j : Nat} {out s : Text} (h : stringLoop bytes i out = .ok (s, j)) :
    i < j := by
  fun_induction stringLoop bytes i out with
  | case1 i out hn => cases h
  | case2 i out hc =>
    cases h
    omega
  | case3 i out e he hc hq => cases h
  | case4 i out ch k he hc hq ih =>
    have := le_of_escape he
    have := ih h
    omega
  | case5 i out c hc hq hb ih =>
    have := ih h
    omega

theorem lt_of_parseString {bytes : Bytes} {i j : Nat} {s : Text} (h : parseString bytes i = .ok (s, j)) : i + 1 < j :=
  lt_of_stringLoop h

/-- The entries of a flat object, in order. -/
abbrev JsonObject := List (Text × Text)

def JsonObject.get (obj : JsonObject) (key : Text) : Option Text := (obj.find? (·.1 = key)).map (·.2)

/-- The body of the loop of `JsonObject::parse`: no entry at a closing brace, else the entry and, behind a comma, the
position to go on from. -/
def parseEntry (bytes : Bytes) (i : Nat) : VckResult (Option ((Text × Text) × Option Nat)) :=
  let i := skipWs bytes i
  if bytes[i]? = some (byte '\x7d') then .ok none
  else if bytes[i]? ≠ some (byte '"') then .error (.invalidData "vck.json: expected key or '\x7d'")
  else do
    let (key, next) ← parseString bytes i
    let i := skipWs bytes next
    if bytes[i]? ≠ some (byte ':') then .error (.invalidData "vck.json: expected ':'")
    else
      let i := skipWs bytes (i + 1)
      if bytes[i]? ≠ some (byte '"') then .error (.invalidData "vck.json: only string values supported")
      else
        let (value, next) ← parseString bytes i
        let i := skipWs bytes next
        if bytes[i]? = some (byte ',') then .ok (some ((key, value), some (i + 1)))
        else if bytes[i]? = some (byte '\x7d') then .ok (some ((key, value), none))
        else .error (.invalidData "vck.json: expected ',' or '\x7d'")

theorem lt_of_parseEntry {bytes : Bytes} {i next : Nat} {entry : Text × Text}
    (h : parseEntry bytes i = .ok (some (entry, some next))) : i < bytes.length ∧ i < next := by
  unfold parseEntry at h
  have hkey := le_skipWs bytes i
  simp only at h
  split at h
  · cases h
  · split at h
    · cases h
    · rename_i hquote
      have hlt : skipWs bytes i < bytes.length := lt_of_getElem?_eq_some (not_not.mp hquote)
      cases hk : parseString bytes (skipWs bytes i) with
      | error e =>
        rw [hk] at h
        cases h
      | ok p =>
        have hp := lt_of_parseString hk
        have hcolon := le_skipWs bytes p.2
        have hquote' := le_skipWs bytes (skipWs bytes p.2 + 1)
        rw [hk] at h
        simp only [bind, Except.bind] at h
        split at h
        · cases h
        · split at h
          · cases h
          · cases hv : parseString bytes (skipWs bytes (skipWs bytes p.2 + 1)) with
            | error e =>
              rw [hv] at h
              cases h
            | ok q =>
              have hq := lt_of_parseString hv
              have hsep := le_skipWs bytes q.2
              rw [hv] at h
              simp only at h
              split at h
              · cases h
                omega
              · split at h <;> cases h

/-- The loop of `JsonObject::parse`. -/
def parseLoop (bytes : Bytes) (i : Nat) (entries : JsonObject) : VckResult JsonObject :=
  match _h : parseEntry bytes i with
  | .error e => .error e
  | .ok none => .ok entries
  | .ok (some (entry, none)) => .ok (entries ++ [entry])
  | .ok (some (entry, some next)) => parseLoop bytes next (entries ++ [entry])
termination_by bytes.length - i
decreasing_by
  obtain ⟨hlt, hnext⟩ := lt_of_parseEntry _h
  omega

def JsonObject.parse (text : Text) : VckResult JsonObject :=
  let bytes := asBytes text
  let i := skipWs bytes 0
  if bytes[i]? ≠ some (byte '\x7b') then .error (.invalidData "vck.json: expected '\x7b'")
  else parseLoop bytes (i + 1) []

/-! ## The configuration -/

/-- The sixteen bytes of a GUID in the order in which it is written. -/
abbrev Guid := Fixed 16

structure VckConfig where
  partitionGuid : Guid
  vmk : Bytes
  osloader : Text

def defaultOsloader : Text := "/EFI/Microsoft/Boot/msbootmgfw.os.efi".toList

/-- `parseStr` is `Guid::parse_str` of the `uuid` crate. -/
def VckConfig.parseJson (parseStr : Text → Option Guid) (bytes : Bytes) : VckResult VckConfig := do
  let text ← match fromUtf8 bytes with
    | none => .error (.invalidData "vck.json is not valid UTF-8")
    | some text => .ok text
  let obj ← JsonObject.parse text
  let guidStr ← match obj.get "partition_guid".toList with
    | none => .error (.invalidData "vck.json: missing partition_guid")
    | some guidStr => .ok guidStr
  let partitionGuid ← match parseStr guidStr with
    | none => .error (.invalidData "vck.json: partition_guid is not a valid GUID")
    | some guid => .ok guid
  let vmkB64 ← match obj.get "vmk".toList with
    | none => .error (.invalidData "vck.json: missing vmk")
    | some vmkB64 => .ok vmkB64
  let vmk ← base64Decode vmkB64
  if vmk.isEmpty then .error (.invalidData "vck.json: vmk is empty")
  else
    let osloader := ((obj.get "osloader".toList).filter (!·.isEmpty)).getD defaultOsloader
    return { partitionGuid, vmk, osloader }

/-! ## The writer -/

/-- `windows.GUID`. -/
structure WindowsGuid where
  data1 : UInt32
  data2 : UInt16
  data3 : UInt16
  data4 : Fixed 8

def hexDigit (d : Nat) : Char := if d < 10 then Char.ofNat (d + 48) else Char.ofNat (d + 87)

/-- The `w` low digits of `n` in base sixteen, as `%0wx` prints them. -/
def hexDigits : Nat → Nat → Text
  | 0, _ => []
  | w + 1, n => hexDigits w (n / 16) ++ [hexDigit (n % 16)]

def formatGuid (g : WindowsGuid) : Text :=
  hexDigits 8 g.data1.toNat ++ '-' :: hexDigits 4 g.data2.toNat ++ '-' :: hexDigits 4 g.data3.toNat ++
    '-' :: (g.data4.toList.take 2).flatMap (hexDigits 2 ·.toNat) ++
      '-' :: (g.data4.toList.drop 2).flatMap (hexDigits 2 ·.toNat)

/-- The letters of the short escapes of JSON, with the characters they stand for. -/
def shortEscapes : List (Char × Char) :=
  [('"', '"'), ('\\', '\\'), ('/', '/'), ('n', '\n'), ('r', '\r'), ('t', '\t'), ('b', '\x08'), ('f', '\x0c')]

/-- The number that hexadecimal digits spell behind `cp`. -/
def hexText (cp : Nat) : Text → Option Nat
  | [] => some cp
  | c :: t => (toDigit16 (byte c)).bind fun d => hexText (cp * 16 + d) t

/-- The escape sequences that stand for a character. -/
inductive Escape : Char → Text → Prop where
  | short {letter c : Char} : (letter, c) ∈ shortEscapes → Escape c ['\\', letter]
  | unicode {c : Char} {digits : Text} : digits.length = 4 → (∀ x ∈ digits, IsAscii x) →
      hexText 0 digits = some c.toNat → Escape c ('\\' :: 'u' :: digits)

/-- The characters that `json.Marshal` never writes as they are. -/
def MustEscape (c : Char) : Prop :=
  c = '"' ∨ c = '\\' ∨ c.toNat < 32 ∨ c = '<' ∨ c = '>' ∨ c = '&' ∨ c = '\u2028' ∨ c = '\u2029'

instance (c : Char) : Decidable (MustEscape c) :=
  inferInstanceAs (Decidable (c = '"' ∨ c = '\\' ∨ c.toNat < 32 ∨ c = '<' ∨ c = '>' ∨ c = '&' ∨ c = '\u2028' ∨
    c = '\u2029'))

/-- What `json.Marshal` makes of each character of a string. -/
structure JsonMarshal where
  char : Char → Text
  escaped : ∀ c, MustEscape c → Escape c (char c)
  raw : ∀ c, ¬ MustEscape c → char c = [c]

def JsonMarshal.string (M : JsonMarshal) (t : Text) : Text := '"' :: t.flatMap M.char ++ ['"']

/-- The fields of a flat object behind its opening brace. -/
def JsonMarshal.fields (M : JsonMarshal) : JsonObject → Text
  | [] => ['\x7d']
  | [(k, v)] => M.string k ++ ':' :: M.string v ++ ['\x7d']
  | (k, v) :: e :: obj => M.string k ++ ':' :: M.string v ++ ',' :: M.fields (e :: obj)

def JsonMarshal.object (M : JsonMarshal) (obj : JsonObject) : Text := '\x7b' :: M.fields obj

/-- The file that `prepareOSVolume` writes. -/
def vckJson (M : JsonMarshal) (partitionGuid : WindowsGuid) (vmk : Bytes) (osloader : Text) : Bytes :=
  asBytes (M.object [("partition_guid".toList, formatGuid partitionGuid), ("vmk".toList, encode vmk),
    ("osloader".toList, osloader)] ++ ['\n'])

/-! ## Reading back -/

section Reading

variable {bytes rest : Bytes} {i : Nat}

theorem skipWs_eq {x : UInt8} (h : bytes.drop i = x :: rest) (hx : isWs x = false) : skipWs bytes i = i := by
  rw [skipWs, getElem?_of_drop h]
  simp [hx]

theorem stringLoop_quote (h : bytes.drop i = byte '"' :: rest) (out : Text) :
    stringLoop bytes i out = .ok (out, i + 1) := by
  rw [stringLoop, getElem?_of_drop h]
  simp

/-- A raw run: each byte becomes a character. -/
theorem stringLoop_raw {xs : Bytes} (h : bytes.drop i = xs ++ rest)
    (hxs : ∀ x ∈ xs, x ≠ byte '"' ∧ x ≠ byte '\\') (out : Text) :
    stringLoop bytes i out = stringLoop bytes (i + xs.length) (out ++ latin1 xs) := by
  induction xs generalizing i out with
  | nil => simp [latin1]
  | cons x xs ih =>
    obtain ⟨hq, hb⟩ := hxs x List.mem_cons_self
    have hstep : stringLoop bytes i out = stringLoop bytes (i + 1) (out ++ [Char.ofNat x.toNat]) := by
      rw [stringLoop, getElem?_of_drop h]
      simp only [hq, hb, if_false]
    rw [hstep, ih (drop_succ h) fun y hy => hxs y (List.mem_cons_of_mem _ hy), List.length_cons, List.append_assoc,
      Nat.add_assoc, Nat.add_comm 1]
    rfl

theorem hexLoop_eq {cp n : Nat} {t : Text} (h : hexText cp t = some n) : hexLoop cp (t.map byte) = .ok n := by
  induction t generalizing cp with
  | nil => exact congrArg Except.ok (Option.some_inj.mp h)
  | cons c t ih =>
    rw [hexText] at h
    obtain ⟨d, hd, ht⟩ := Option.bind_eq_some_iff.mp h
    rw [List.map_cons, hexLoop, hd]
    exact ih ht

theorem charFromU32_toNat (c : Char) : charFromU32 c.toNat = some c := by
  rw [charFromU32, if_pos (show c.toNat.isValidChar from c.valid), Char.ofNat_toNat]

theorem shortEscapes_ascii {letter c : Char} (h : (letter, c) ∈ shortEscapes) : IsAscii letter := by
  have hall : ∀ e ∈ shortEscapes, IsAscii e.1 := by decide
  exact hall _ h

theorem escape_short {letter c : Char} (h : (letter, c) ∈ shortEscapes) (hi : bytes[i]? = some (byte letter)) :
    escape bytes i = .ok (c, i) := by
  have hall : ∀ e ∈ shortEscapes, shortEscape (byte e.1) = some e.2 := by decide
  rw [escape, hi]
  simp only [hall _ h]

theorem escape_unicode {c : Char} {digits : Text} (hlen : digits.length = 4) (hc : hexText 0 digits = some c.toNat)
    (h : bytes.drop i = byte 'u' :: digits.map byte ++ rest) : escape bytes i = .ok (c, i + 4) := by
  have hend : i + 5 ≤ bytes.length := by
    have hl := congrArg List.length h
    rw [List.length_drop, List.length_append, List.length_cons, List.length_map, hlen] at hl
    omega
  have hslice : slice bytes (i + 1) 4 = digits.map byte := by
    have hs : slice bytes (i + 1) (digits.map byte).length = digits.map byte := slice_of_drop (drop_succ h)
    rwa [List.length_map, hlen] at hs
  rw [escape, getElem?_of_drop h]
  simp only [show shortEscape (byte 'u') = none by decide, if_true, hend, hslice, hexLoop_eq hc, charFromU32_toNat]

/-- An escape sequence becomes its character. -/
theorem stringLoop_escape {c : Char} {t : Text} (ht : Escape c t) (h : bytes.drop i = asBytes t ++ rest)
    (out : Text) : stringLoop bytes i out = stringLoop bytes (i + (asBytes t).length) (out ++ [c]) := by
  have hstep {j : Nat} {s : Bytes} (hs : bytes.drop i = byte '\\' :: s) (he : escape bytes (i + 1) = .ok (c, j)) :
      stringLoop bytes i out = stringLoop bytes (j + 1) (out ++ [c]) := by
    rw [stringLoop, getElem?_of_drop hs]
    simp only [show byte '\\' ≠ byte '"' by decide, if_false, if_true]
    split
    · rename_i he'
      rw [he] at he'
      cases he'
    · rename_i he'
      rw [he] at he'
      cases he'
      rfl
  cases ht with
  | @short letter _ hmem =>
    have hb : asBytes ['\\', letter] = [byte '\\', byte letter] :=
      asBytes_ascii (by simpa using ⟨by decide, shortEscapes_ascii hmem⟩)
    rw [hb] at h ⊢
    rw [hstep h (escape_short hmem (getElem?_of_drop (drop_succ h)))]
    rfl
  | @unicode _ digits hlen hdigits hc =>
    have hb : asBytes ('\\' :: 'u' :: digits) = byte '\\' :: byte 'u' :: digits.map byte :=
      asBytes_ascii (by simpa using ⟨by decide, by decide, hdigits⟩)
    rw [hb] at h ⊢
    rw [hstep h (escape_unicode hlen hc (drop_succ h)), List.length_cons, List.length_cons, List.length_map, hlen]

/-- What the scanner makes of a character as it was written. -/
def scanned (c : Char) : Text := if MustEscape c then [c] else latin1 (String.utf8EncodeChar c)

theorem plain_bytes {c : Char} (hc : ¬ MustEscape c) :
    ∀ x ∈ String.utf8EncodeChar c, x ≠ byte '"' ∧ x ≠ byte '\\' := by
  intro x hx
  have hq : c ≠ '"' := fun h => hc (.inl h)
  have hb : c ≠ '\\' := fun h => hc (.inr (.inl h))
  by_cases hascii : IsAscii c
  · rw [utf8EncodeChar_ascii hascii, List.mem_singleton] at hx
    subst hx
    exact ⟨fun h => hq (byte_injective hascii (by decide) h), fun h => hb (byte_injective hascii (by decide) h)⟩
  · have hx' := (utf8EncodeChar_wide hascii).2 x hx
    constructor
    · rintro rfl
      exact absurd hx' (by decide)
    · rintro rfl
      exact absurd hx' (by decide)

variable (M : JsonMarshal)

theorem stringLoop_char {c : Char} (h : bytes.drop i = asBytes (M.char c) ++ rest) (out : Text) :
    stringLoop bytes i out = stringLoop bytes (i + (asBytes (M.char c)).length) (out ++ scanned c) := by
  by_cases hc : MustEscape c
  · rw [stringLoop_escape (M.escaped c hc) h, scanned, if_pos hc]
  · rw [M.raw c hc] at h ⊢
    rw [asBytes_cons, asBytes_nil, List.append_nil] at h ⊢
    rw [stringLoop_raw h (plain_bytes hc), scanned, if_neg hc]

theorem stringLoop_text {t : Text} (h : bytes.drop i = asBytes (t.flatMap M.char) ++ byte '"' :: rest) (out : Text) :
    stringLoop bytes i out = .ok (out ++ t.flatMap scanned, i + (asBytes (t.flatMap M.char)).length + 1) := by
  induction t generalizing i out with
  | nil =>
    rw [stringLoop_quote h]
    simp
  | cons c t ih =>
    rw [List.flatMap_cons, asBytes_append, List.append_assoc] at h
    rw [stringLoop_char M h, ih (drop_append h), List.flatMap_cons, List.flatMap_cons, asBytes_append,
      List.length_append, List.append_assoc, Nat.add_assoc i]

theorem asBytes_string (t : Text) :
    asBytes (M.string t) = byte '"' :: (asBytes (t.flatMap M.char) ++ [byte '"']) := by
  have hq : String.utf8EncodeChar '"' = [byte '"'] := utf8EncodeChar_ascii (by decide)
  simp [JsonMarshal.string, hq]

/-- A written string is read to its end. -/
theorem parseString_string {t : Text} (h : bytes.drop i = asBytes (M.string t) ++ rest) :
    parseString bytes i = .ok (t.flatMap scanned, i + (asBytes (M.string t)).length) := by
  rw [asBytes_string, List.cons_append, List.append_assoc] at h
  rw [parseString, stringLoop_text M (drop_succ h), asBytes_string]
  simp
  omega

theorem asBytes_cons_ascii {c : Char} (hc : IsAscii c) (t : Text) : asBytes (c :: t) = byte c :: asBytes t := by
  rw [asBytes_cons, utf8EncodeChar_ascii hc, List.singleton_append]

/-- One entry and the byte behind it. -/
theorem parseEntry_eq {k v : Text} {sep : UInt8} (hsep : isWs sep = false)
    (h : bytes.drop i = asBytes (M.string k) ++ byte ':' :: (asBytes (M.string v) ++ sep :: rest)) :
    ∃ j, bytes.drop j = sep :: rest ∧ parseEntry bytes i =
      if sep = byte ',' then .ok (some ((k.flatMap scanned, v.flatMap scanned), some (j + 1)))
      else if sep = byte '\x7d' then .ok (some ((k.flatMap scanned, v.flatMap scanned), none))
      else .error (.invalidData "vck.json: expected ',' or '\x7d'") := by
  have hkey := parseString_string M h
  have hcolon := drop_append h
  have hquote := drop_succ hcolon
  have hvalue := parseString_string M hquote
  have hend := drop_append hquote
  refine ⟨_, hend, ?_⟩
  rw [asBytes_string, List.cons_append] at h
  rw [asBytes_string M v, List.cons_append] at hquote
  simp only [parseEntry, skipWs_eq h (by decide), getElem?_of_drop h, Option.some_inj,
    show byte '"' ≠ byte '\x7d' by decide, if_false, ne_eq, not_true, hkey, bind, Except.bind,
    skipWs_eq hcolon (by decide), getElem?_of_drop hcolon, skipWs_eq hquote (by decide), getElem?_of_drop hquote,
    hvalue, skipWs_eq hend hsep, getElem?_of_drop hend]

theorem parseLoop_entry {entry : Text × Text} {next : Option Nat} (h : parseEntry bytes i = .ok (some (entry, next)))
    (es : JsonObject) :
    parseLoop bytes i es =
      match next with
      | none => .ok (es ++ [entry])
      | some next => parseLoop bytes next (es ++ [entry]) := by
  rw [parseLoop]
  cases next with
  | none =>
    split <;> rename_i h' <;> rw [h] at h' <;> cases h'
    rfl
  | some next =>
    split <;> rename_i h' <;> rw [h] at h' <;> cases h'
    rfl

/-- A written object is read entry by entry. -/
theorem parseLoop_fields (obj : JsonObject) (h : bytes.drop i = asBytes (M.fields obj) ++ rest) (es : JsonObject) :
    parseLoop bytes i es = .ok (es ++ obj.map fun e => (e.1.flatMap scanned, e.2.flatMap scanned)) := by
  have hbrace (t : Text) : asBytes ('\x7d' :: t) = byte '\x7d' :: asBytes t := asBytes_cons_ascii (by decide) t
  have hcolon (t : Text) : asBytes (':' :: t) = byte ':' :: asBytes t := asBytes_cons_ascii (by decide) t
  have hcomma (t : Text) : asBytes (',' :: t) = byte ',' :: asBytes t := asBytes_cons_ascii (by decide) t
  induction obj using JsonMarshal.fields.induct generalizing i es with
  | case1 =>
    rw [JsonMarshal.fields, hbrace, asBytes_nil, List.singleton_append] at h
    have hentry : parseEntry bytes i = .ok none := by
      simp only [parseEntry, skipWs_eq h (by decide), getElem?_of_drop h, if_true]
    rw [parseLoop]
    split <;> rename_i h' <;> rw [hentry] at h' <;> cases h'
    simp
  | case2 k v =>
    simp only [JsonMarshal.fields, asBytes_append, hcolon, hbrace, asBytes_nil, List.append_assoc, List.cons_append,
      List.nil_append] at h
    obtain ⟨j, _, hentry⟩ := parseEntry_eq M (by decide) h
    rw [if_neg (by decide), if_pos rfl] at hentry
    rw [parseLoop_entry hentry]
    rfl
  | case3 k v e obj ih =>
    simp only [JsonMarshal.fields, asBytes_append, hcolon, hcomma, List.append_assoc, List.cons_append] at h
    obtain ⟨j, hj, hentry⟩ := parseEntry_eq M (by decide) h
    rw [if_pos rfl] at hentry
    rw [parseLoop_entry hentry]
    simp only
    rw [ih (drop_succ hj), List.append_assoc]
    rfl

theorem parse_object (obj : JsonObject) (tail : Text) :
    JsonObject.parse (M.object obj ++ tail) =
      .ok (obj.map fun e => (e.1.flatMap scanned, e.2.flatMap scanned)) := by
  have h : (asBytes (M.object obj ++ tail)).drop 0 = byte '\x7b' :: (asBytes (M.fields obj) ++ asBytes tail) := by
    rw [List.drop_zero, JsonMarshal.object, List.cons_append, asBytes_cons_ascii (by decide), asBytes_append]
  rw [JsonObject.parse]
  simp only [skipWs_eq h (by decide), getElem?_of_drop h, ne_eq, not_true, if_false]
  rw [parseLoop_fields M obj (drop_succ h)]
  rfl

end Reading

/-! ## The round trip -/

/-- The characters that the scanner gives back. -/
theorem scanned_eq {c : Char} (hc : IsAscii c ∨ MustEscape c) : scanned c = [c] := by
  rw [scanned]
  split
  · rfl
  · rename_i hm
    have hascii : IsAscii c := hc.resolve_right hm
    rw [utf8EncodeChar_ascii hascii, latin1_byte hascii]

/-- A raw character outside ASCII falls apart into its bytes. -/
theorem two_le_length_scanned {c : Char} (hascii : ¬ IsAscii c) (hc : ¬ MustEscape c) : 2 ≤ (scanned c).length := by
  rw [scanned, if_neg hc, latin1, List.length_map]
  exact (utf8EncodeChar_wide hascii).1

theorem flatMap_scanned_of_ascii {t : Text} (h : ∀ c ∈ t, IsAscii c) : t.flatMap scanned = t := by
  have hmap : t.flatMap scanned = t.flatMap fun c => [c] :=
    List.flatMap_congr fun c hc => scanned_eq (.inl (h c hc))
  rw [hmap, List.flatMap_singleton']

theorem length_le_flatMap_scanned (t : Text) : t.length ≤ (t.flatMap scanned).length := by
  induction t with
  | nil => exact Nat.le_refl 0
  | cons c t ih =>
    have hpos : 1 ≤ (scanned c).length := by
      by_cases hc : IsAscii c ∨ MustEscape c
      · rw [scanned_eq hc]
        exact Nat.le_refl 1
      · rw [not_or] at hc
        exact Nat.le_of_lt (two_le_length_scanned hc.1 hc.2)
    rw [List.flatMap_cons, List.length_append, List.length_cons]
    omega

theorem flatMap_scanned_eq_iff {t : Text} : t.flatMap scanned = t ↔ ∀ c ∈ t, IsAscii c ∨ MustEscape c := by
  induction t with
  | nil => simp
  | cons c t ih =>
    rw [List.flatMap_cons, List.forall_mem_cons, ← ih]
    constructor
    · intro h
      have hc : IsAscii c ∨ MustEscape c := by
        by_contra hc
        rw [not_or] at hc
        have hlen := congrArg List.length h
        have h₂ := two_le_length_scanned hc.1 hc.2
        have hle := length_le_flatMap_scanned t
        rw [List.length_append, List.length_cons] at hlen
        omega
      rw [scanned_eq hc, List.singleton_append, List.cons.injEq] at h
      exact ⟨hc, h.2⟩
    · rintro ⟨hc, h⟩
      rw [scanned_eq hc, h, List.singleton_append]

/-- What is written raw or as an escape, and read back as it was. -/
def ReadBack (c : Char) : Prop := IsAscii c ∨ c = '\u2028' ∨ c = '\u2029'

theorem readBack_iff {c : Char} : ReadBack c ↔ IsAscii c ∨ MustEscape c := by
  constructor
  · rintro (h | h | h)
    · exact .inl h
    · exact .inr (by simp [MustEscape, h])
    · exact .inr (by simp [MustEscape, h])
  · rintro (h | rfl | rfl | h | rfl | rfl | rfl | h | h)
    · exact .inl h
    · exact .inl (by decide)
    · exact .inl (by decide)
    · exact .inl (Nat.lt_trans h (by decide))
    · exact .inl (by decide)
    · exact .inl (by decide)
    · exact .inl (by decide)
    · exact .inr (.inl h)
    · exact .inr (.inr h)

theorem forall_hexDigits {p : Char → Prop} (hp : ∀ d < 16, p (hexDigit d)) (w n : Nat) : ∀ c ∈ hexDigits w n, p c := by
  induction w generalizing n with
  | zero => simp [hexDigits]
  | succ w ih =>
    intro c hc
    rw [hexDigits, List.mem_append, List.mem_singleton] at hc
    rcases hc with hc | rfl
    · exact ih _ c hc
    · exact hp _ (Nat.mod_lt _ (by decide))

theorem hexDigits_ascii (w n : Nat) : ∀ c ∈ hexDigits w n, IsAscii c := forall_hexDigits (by decide) w n

theorem formatGuid_ascii (g : WindowsGuid) : ∀ c ∈ formatGuid g, IsAscii c := by
  intro c hc
  have hdash : IsAscii '-' := by decide
  simp only [formatGuid, List.mem_append, List.mem_cons, List.mem_flatMap, List.append_assoc, List.cons_append] at hc
  rcases hc with hc | rfl | hc | rfl | hc | rfl | ⟨x, -, hc⟩ | rfl | ⟨x, -, hc⟩
  · exact hexDigits_ascii _ _ c hc
  · exact hdash
  · exact hexDigits_ascii _ _ c hc
  · exact hdash
  · exact hexDigits_ascii _ _ c hc
  · exact hdash
  · exact hexDigits_ascii _ _ c hc
  · exact hdash
  · exact hexDigits_ascii _ _ c hc

/-- The bytes of a Windows GUID in the order in which it is written. -/
def WindowsGuid.canonical (g : WindowsGuid) : Guid :=
  ⟨(leBytes 4 g.data1.toNat).reverse ++ (leBytes 2 g.data2.toNat).reverse ++ (leBytes 2 g.data3.toNat).reverse ++
    g.data4.toList, by simp⟩

def hexBytes (b : Bytes) : Text := b.flatMap (hexDigits 2 ·.toNat)

/-- The hyphenated form of a GUID. -/
def hyphenated (u : Guid) : Text :=
  hexBytes (slice u.toList 0 4) ++ '-' :: hexBytes (slice u.toList 4 2) ++ '-' :: hexBytes (slice u.toList 6 2) ++
    '-' :: hexBytes (slice u.toList 8 2) ++ '-' :: hexBytes (slice u.toList 10 6)

theorem hexBytes_append (a b : Bytes) : hexBytes (a ++ b) = hexBytes a ++ hexBytes b := List.flatMap_append

/-- A number printed in one piece is its bytes printed one by one. -/
theorem hexDigits_eq_hexBytes (w n : Nat) : hexDigits (2 * w) n = hexBytes (leBytes w n).reverse := by
  induction w generalizing n with
  | zero => rfl
  | succ w ih =>
    have hn : n / 16 / 16 = n / 256 := Nat.div_div_eq_div_mul n 16 16
    have h₁ : n / 16 % 16 = n % 256 / 16 % 16 := by omega
    have h₂ : n % 16 = n % 256 % 16 := by omega
    have hlast : hexBytes [UInt8.ofNat n] = [hexDigit (n / 16 % 16), hexDigit (n % 16)] := by
      rw [hexBytes, List.flatMap_singleton, UInt8.toNat_ofNat', h₁, h₂]
      rfl
    rw [leBytes, List.reverse_cons, hexBytes_append, ← ih, hlast, Nat.mul_succ, hexDigits, hexDigits, hn,
      List.append_assoc]
    rfl

theorem formatGuid_eq (g : WindowsGuid) : formatGuid g = hyphenated g.canonical := by
  have h₁ := hexDigits_eq_hexBytes 4 g.data1.toNat
  have h₂ := hexDigits_eq_hexBytes 2 g.data2.toNat
  have h₃ := hexDigits_eq_hexBytes 2 g.data3.toNat
  have hfour : g.data4.toList.length = 8 := g.data4.toList_length
  have hrest : List.take 6 (List.drop 2 g.data4.toList) = List.drop 2 g.data4.toList :=
    List.take_of_length_le (by rw [List.length_drop]; omega)
  have hlist : g.canonical.toList = (leBytes 4 g.data1.toNat).reverse ++ (leBytes 2 g.data2.toNat).reverse ++
      (leBytes 2 g.data3.toNat).reverse ++ g.data4.toList := rfl
  rw [formatGuid, h₁, h₂, h₃, hyphenated, hlist]
  simp [slice, leBytes, hexBytes, hrest]

theorem encode_ascii (b : Bytes) : ∀ c ∈ encode b, IsAscii c := by
  intro c hc
  rw [encode, List.mem_append] at hc
  rcases hc with hc | hc
  · obtain ⟨v, hv, rfl⟩ := List.mem_map.mp hc
    exact symbol_ascii (sextets_lt v hv)
  · rw [(List.mem_replicate.mp hc).2]
    decide

/-- The documented behaviour of `Guid::parse_str` on the hyphenated form. -/
def ParsesHyphenated (parseStr : Text → Option Guid) : Prop := ∀ u, parseStr (hyphenated u) = some u

section RoundTrip

variable {parseStr : Text → Option Guid} (M : JsonMarshal) (g : WindowsGuid) {vmk : Bytes} {osloader : Text}

/-- The loader reads the file; GUID and key are those that were written. -/
theorem parseJson_vckJson (hparse : ParsesHyphenated parseStr) (hvmk : vmk ≠ []) (hos : osloader ≠ []) :
    VckConfig.parseJson parseStr (vckJson M g vmk osloader) = .ok ⟨g.canonical, vmk, osloader.flatMap scanned⟩ := by
  have hobj := parse_object M [("partition_guid".toList, formatGuid g), ("vmk".toList, encode vmk),
    ("osloader".toList, osloader)] ['\n']
  simp only [List.map_cons, List.map_nil] at hobj
  rw [flatMap_scanned_of_ascii (t := "partition_guid".toList) (by simp [IsAscii]),
    flatMap_scanned_of_ascii (t := "vmk".toList) (by simp [IsAscii]),
    flatMap_scanned_of_ascii (t := "osloader".toList) (by simp [IsAscii]), flatMap_scanned_of_ascii (formatGuid_ascii g),
    flatMap_scanned_of_ascii (encode_ascii vmk)] at hobj
  have hempty : (osloader.flatMap scanned).isEmpty = false := by
    have hlen := length_le_flatMap_scanned osloader
    have hpos := List.length_pos_iff.mpr hos
    rw [List.isEmpty_eq_false_iff, ← List.length_pos_iff]
    omega
  have hg : parseStr (formatGuid g) = some g.canonical := by
    rw [formatGuid_eq]
    exact hparse _
  have hvmk' : vmk.isEmpty = false := List.isEmpty_eq_false_iff.mpr hvmk
  rw [VckConfig.parseJson, vckJson, fromUtf8_asBytes]
  simp only [bind, Except.bind, hobj]
  generalize hentries : ([_, _, _] : JsonObject) = obj
  have h₁ : JsonObject.get obj "partition_guid".toList = some (formatGuid g) := by
    rw [← hentries]
    rfl
  have h₂ : JsonObject.get obj "vmk".toList = some (encode vmk) := by
    rw [← hentries]
    rfl
  have h₃ : JsonObject.get obj "osloader".toList = some (osloader.flatMap scanned) := by
    rw [← hentries]
    rfl
  simp only [h₁, h₂, h₃, hg, base64Decode_encode, hvmk', Option.filter, hempty]
  rfl

/-- The file is read back unchanged exactly when the loader path has no raw character outside ASCII. -/
theorem vckJson_read_back_iff (hparse : ParsesHyphenated parseStr) (hvmk : vmk ≠ []) (hos : osloader ≠ []) :
    VckConfig.parseJson parseStr (vckJson M g vmk osloader) = .ok ⟨g.canonical, vmk, osloader⟩ ↔
      ∀ c ∈ osloader, ReadBack c := by
  rw [parseJson_vckJson M g hparse hvmk hos]
  simp only [Except.ok.injEq, VckConfig.mk.injEq, true_and, flatMap_scanned_eq_iff, readBack_iff]

end RoundTrip

/-! ## The encoder of the app -/

theorem toDigit16_hexDigit {d : Nat} (hd : d < 16) : toDigit16 (byte (hexDigit d)) = some d := by
  have hall : ∀ d < 16, toDigit16 (byte (hexDigit d)) = some d := by decide
  exact hall d hd

theorem hexText_append (cp : Nat) (s t : Text) : hexText cp (s ++ t) = (hexText cp s).bind (hexText · t) := by
  induction s generalizing cp with
  | nil => rfl
  | cons c s ih =>
    rw [List.cons_append, hexText, hexText, Option.bind_assoc]
    exact Option.bind_congr fun d _ => ih _

theorem hexText_hexDigits {w n : Nat} (h : n < 16 ^ w) : hexText 0 (hexDigits w n) = some n := by
  induction w generalizing n with
  | zero =>
    obtain rfl : n = 0 := by omega
    rfl
  | succ w ih =>
    have hlt : n / 16 < 16 ^ w := Nat.div_lt_of_lt_mul (by rwa [Nat.pow_succ'] at h)
    rw [hexDigits, hexText_append, ih hlt, Option.bind_some, hexText, toDigit16_hexDigit (Nat.mod_lt _ (by decide)),
      Option.bind_some, hexText, Nat.div_add_mod']

@[simp] theorem length_hexDigits (w n : Nat) : (hexDigits w n).length = w := by
  induction w generalizing n with
  | zero => rfl
  | succ w ih => rw [hexDigits, List.length_append, ih, List.length_singleton]

/-- The short escapes that `json.Marshal` uses. -/
def goShortEscapes : List (Char × Char) :=
  [('"', '"'), ('\\', '\\'), ('b', '\x08'), ('f', '\x0c'), ('n', '\n'), ('r', '\r'), ('t', '\t')]

/-- A character in a string of `json.Marshal`, HTML escaping on. -/
def goChar (c : Char) : Text :=
  match goShortEscapes.find? (·.2 = c) with
  | some (letter, _) => ['\\', letter]
  | none => if MustEscape c then '\\' :: 'u' :: hexDigits 4 c.toNat else [c]

def goMarshal : JsonMarshal where
  char := goChar
  escaped c hc := by
    rw [goChar]
    split
    · rename_i letter c' hfind
      have hall : ∀ e ∈ goShortEscapes, e ∈ shortEscapes := by decide
      obtain rfl : c' = c := by simpa using List.find?_some hfind
      exact .short (hall _ (List.mem_of_find?_eq_some hfind))
    · have hlt : c.toNat < 16 ^ 4 := by
        rcases hc with rfl | rfl | h | rfl | rfl | rfl | rfl | rfl
        all_goals first | decide | omega
      rw [if_pos hc]
      exact .unicode (length_hexDigits 4 _) (hexDigits_ascii 4 _) (hexText_hexDigits hlt)
  raw c hc := by
    rw [goChar]
    split
    · rename_i letter c' hfind
      have hall : ∀ e ∈ goShortEscapes, MustEscape e.2 := by decide
      obtain rfl : c' = c := by simpa using List.find?_some hfind
      exact absurd (hall _ (List.mem_of_find?_eq_some hfind)) hc
    · rw [if_neg hc]

/-- A reader of the hyphenated form. -/
def hexPairs : Text → Option Bytes
  | a :: b :: t => do
    let x ← toDigit16 (byte a)
    let y ← toDigit16 (byte b)
    let rest ← hexPairs t
    return UInt8.ofNat (x * 16 + y) :: rest
  | _ => some []

def parseHyphenated (t : Text) : Option Guid := (hexPairs (t.filter (· ≠ '-'))).map (Fixed.ofBytes 16)

theorem hexPairs_hexBytes (b : Bytes) : hexPairs (hexBytes b) = some b := by
  induction b with
  | nil => rfl
  | cons x b ih =>
    have hx := x.toNat_lt
    have hb : hexBytes (x :: b) = hexDigit (x.toNat / 16) :: hexDigit (x.toNat % 16) :: hexBytes b := by
      have hd : x.toNat / 16 % 16 = x.toNat / 16 := by omega
      rw [hexBytes, List.flatMap_cons, hexDigits, hexDigits, hexDigits, hd]
      rfl
    have hval : UInt8.ofNat (x.toNat / 16 * 16 + x.toNat % 16) = x := by
      rw [Nat.div_add_mod', UInt8.ofNat_toNat]
    rw [hb, hexPairs, toDigit16_hexDigit (by omega), toDigit16_hexDigit (by omega), ih]
    exact congrArg (fun y => some (y :: b)) hval

theorem parseHyphenated_parses : ParsesHyphenated parseHyphenated := by
  intro u
  have hdash (b : Bytes) : (hexBytes b).filter (· ≠ '-') = hexBytes b := by
    rw [List.filter_eq_self]
    intro c hc
    obtain ⟨x, _, hx⟩ := List.mem_flatMap.mp hc
    have hne : c ≠ '-' := forall_hexDigits (p := (· ≠ '-')) (by decide) 2 _ c hx
    exact decide_eq_true hne
  have hall : slice u.toList 0 4 ++ slice u.toList 4 2 ++ slice u.toList 6 2 ++ slice u.toList 8 2 ++
      slice u.toList 10 6 = u.toList := by
    rw [slice_append_slice u.toList 0 4 2, slice_append_slice u.toList 0 6 2, slice_append_slice u.toList 0 8 2,
      slice_append_slice u.toList 0 10 6]
    exact List.take_of_length_le (Nat.le_of_eq u.toList_length)
  rw [parseHyphenated, hyphenated]
  simp only [List.filter_append, List.filter_cons, hdash, ne_eq, not_true, decide_false, Bool.false_eq_true, if_false,
    List.append_assoc]
  simp only [← hexBytes_append]
  rw [← List.append_assoc, ← List.append_assoc, ← List.append_assoc, hall, hexPairs_hexBytes, Option.map_some,
    Fixed.ofBytes_toList]

def sampleGuid : WindowsGuid := ⟨0x0f77955a, 0xf63e, 0xf111, ⟨[0x8b, 0x5c, 0xb4, 0x2e, 0x99, 0x11, 0x84, 0x0a], rfl⟩⟩

/-- The path that the app writes is read back. -/
theorem os_loader_read_back :
    VckConfig.parseJson parseHyphenated
        (vckJson goMarshal sampleGuid [0, 1, 2, 3] "/EFI/Microsoft/Boot/bootmgfw.os.efi".toList) =
      .ok ⟨sampleGuid.canonical, [0, 1, 2, 3], "/EFI/Microsoft/Boot/bootmgfw.os.efi".toList⟩ :=
  (vckJson_read_back_iff goMarshal sampleGuid parseHyphenated_parses (by decide) (by decide)).mpr fun c hc =>
    .inl ((show ∀ c ∈ "/EFI/Microsoft/Boot/bootmgfw.os.efi".toList, IsAscii c by simp [IsAscii]) c hc)

/-- A path with an accented letter comes back with two letters in its place. -/
theorem accented_path_mangled :
    VckConfig.parseJson parseHyphenated (vckJson goMarshal sampleGuid [0, 1, 2, 3] "/EFI/\u00e9.efi".toList) =
        .ok ⟨sampleGuid.canonical, [0, 1, 2, 3], "/EFI/\u00c3\u00a9.efi".toList⟩ ∧
      VckConfig.parseJson parseHyphenated (vckJson goMarshal sampleGuid [0, 1, 2, 3] "/EFI/\u00e9.efi".toList) ≠
        .ok ⟨sampleGuid.canonical, [0, 1, 2, 3], "/EFI/\u00e9.efi".toList⟩ := by
  have hread := parseJson_vckJson goMarshal sampleGuid parseHyphenated_parses
    (show ([0, 1, 2, 3] : Bytes) ≠ [] by decide) (show "/EFI/\u00e9.efi".toList ≠ [] by decide)
  have hscan : "/EFI/\u00e9.efi".toList.flatMap scanned = "/EFI/\u00c3\u00a9.efi".toList := by decide
  rw [hscan] at hread
  refine ⟨hread, ?_⟩
  rw [hread]
  intro h
  injection h with h
  injection h with _ _ h
  exact absurd h (by decide)

end VckJson
